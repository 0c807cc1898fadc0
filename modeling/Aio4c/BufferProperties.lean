import Aio4c.Buffer

/-! Position, limit and capacity of a buffer under any history of calls. The
ordering of the three numbers and the two NUL bytes behind the capacity are
one invariant: the first keeps every copy inside the block, the second stops
every string scan. -/

set_option autoImplicit false

namespace Aio4c

open SignedInt

/-- `0 <= position <= limit <= size`. -/
structure Buffer.Ordered (buffer : Buffer) : Prop where
  nonneg : 0 ≤ buffer.position
  below : buffer.position ≤ buffer.limit
  within : buffer.limit ≤ buffer.size

/-- The block of `size + 2` bytes that `NewBuffer` allocates. -/
structure Buffer.Block (buffer : Buffer) : Prop where
  nonneg : 0 ≤ buffer.size
  small : buffer.size + 2 < 2147483648
  length : (buffer.data.length : Int) = buffer.size + 2

/-- The block with its two trailing bytes still NUL. -/
structure Buffer.Allocated (buffer : Buffer) : Prop extends buffer.Block where
  trailing : buffer.data.drop buffer.size.toNat = [0, 0]

instance (buffer : Buffer) : Decidable buffer.Ordered :=
  decidable_of_iff (0 ≤ buffer.position ∧ buffer.position ≤ buffer.limit ∧
      buffer.limit ≤ buffer.size)
    ⟨fun ⟨nonneg, below, within⟩ => ⟨nonneg, below, within⟩,
      fun ⟨nonneg, below, within⟩ => ⟨nonneg, below, within⟩⟩

theorem Buffer.Allocated.move {buffer : Buffer} (allocated : buffer.Allocated)
    (position limit : Int) : Buffer.Allocated { buffer with position, limit } :=
  ⟨⟨allocated.nonneg, allocated.small, allocated.length⟩, allocated.trailing⟩

theorem newBuffer_made {mallocBuffer mallocData : Nat → Bool} {size : Int} {buffer : Buffer}
    (lower : 0 ≤ size) (upper : size < 2147483648)
    (made : newBuffer mallocBuffer mallocData size = .ok (some buffer)) :
    size + 2 < 2147483648 ∧ buffer =
      { size, data := List.replicate (size + 2).toNat 0, position := 0, limit := size } := by
  simp only [newBuffer] at made
  cases structure? : aio4cMalloc mallocBuffer bufferStructSize with
  | error fault => simp [structure?, bind, Except.bind] at made
  | ok granted =>
      cases granted with
      | none => simp [structure?, bind, Except.bind, pure, Except.pure] at made
      | some _ =>
          simp only [structure?, bind, Except.bind] at made
          by_cases small : size + 2 < 2147483648
          · rw [int32_of_mem (by omega) small] at made
            cases data? : aio4cMalloc mallocData (size + 2) with
            | error fault => simp [data?] at made
            | ok granted =>
                cases granted with
                | none => simp [data?, pure, Except.pure] at made
                | some data =>
                    have zeros := aio4cMalloc_granted (by omega) small data?
                    simp only [data?, pure, Except.pure, Except.ok.injEq, Option.some.injEq] at made
                    exact ⟨small, by rw [← made, zeros]⟩
          · -- `size + 2` wraps to a request that no allocator grants.
            rw [int32_of_overflow (by omega) (by omega),
              aio4cMalloc_negative (by omega) (by omega)] at made
            simp [pure, Except.pure] at made

theorem newBuffer_allocated {mallocBuffer mallocData : Nat → Bool} {size : Int} {buffer : Buffer}
    (lower : 0 ≤ size) (upper : size < 2147483648)
    (made : newBuffer mallocBuffer mallocData size = .ok (some buffer)) :
    buffer.Allocated ∧ buffer.Ordered ∧ buffer.size = size := by
  obtain ⟨small, rfl⟩ := newBuffer_made lower upper made
  refine ⟨⟨⟨lower, small, ?_⟩, ?_⟩, ⟨le_refl _, lower, le_refl _⟩, rfl⟩
  · simp only [List.length_replicate]
    omega
  simp only [List.drop_replicate]
  have rest : (size + 2).toNat - size.toNat = 2 := by omega
  rw [rest]
  rfl

/-! ## Overwritten blocks -/

theorem drop_overwrite (block bytes : List UInt8) {offset count : Nat}
    (front : offset + bytes.length ≤ count) (inside : count ≤ block.length) :
    (block.take offset ++ bytes ++ block.drop (offset + bytes.length)).drop count =
      block.drop count := by
  rw [List.drop_append, List.drop_eq_nil_of_le (by simp; omega), List.nil_append,
    List.drop_drop]
  congr 1
  simp only [List.length_append, List.length_take]
  omega

theorem length_overwrite (block bytes : List UInt8) {offset : Nat}
    (inside : offset + bytes.length ≤ block.length) :
    (block.take offset ++ bytes ++ block.drop (offset + bytes.length)).length = block.length := by
  simp only [List.length_append, List.length_take, List.length_drop]
  omega

theorem Buffer.Block.overwrite {buffer : Buffer} {offset : Int} (block : buffer.Block)
    (bytes : List UInt8) (lower : 0 ≤ offset)
    (front : offset + bytes.length ≤ buffer.size) (position limit : Int) :
    writeBytes buffer.data offset bytes = .ok
        (buffer.data.take offset.toNat ++ bytes ++
          buffer.data.drop (offset.toNat + bytes.length)) ∧
      Buffer.Block { buffer with
        data := buffer.data.take offset.toNat ++ bytes ++
          buffer.data.drop (offset.toNat + bytes.length), position, limit } := by
  have length := block.length
  refine ⟨writeBytes_ok lower (by omega), block.nonneg, block.small, ?_⟩
  rw [← length, Int.natCast_inj]
  exact length_overwrite _ _ (by omega)

theorem Buffer.Allocated.overwrite {buffer : Buffer} {offset : Int}
    (allocated : buffer.Allocated) (bytes : List UInt8) (lower : 0 ≤ offset)
    (front : offset + bytes.length ≤ buffer.size) (position limit : Int) :
    Buffer.Allocated { buffer with
      data := buffer.data.take offset.toNat ++ bytes ++
        buffer.data.drop (offset.toNat + bytes.length), position, limit } := by
  have length := allocated.length
  refine ⟨(allocated.toBlock.overwrite bytes lower front position limit).2, ?_⟩
  have kept := drop_overwrite buffer.data bytes
    (show offset.toNat + bytes.length ≤ buffer.size.toNat by omega) (by omega)
  exact kept.trans allocated.trailing

theorem drop_terminate {block : List UInt8} {offset count : Nat}
    (inside : offset < block.length) (trailing : block.drop count = [0, 0]) :
    (block.take offset ++ [0] ++ block.drop (offset + 1)).drop count = [0, 0] := by
  have same : block.take offset ++ [0] ++ block.drop (offset + 1) = block.set offset 0 := by
    rw [List.set_eq_take_append_cons_drop, if_pos inside]
    simp
  rw [same, List.drop_set, trailing]
  split
  · rfl
  · rcases offset - count with _ | _ | _ <;> rfl

/-! ## String scans -/

/-- The scan for a terminator stops at the capacity at the latest. -/
theorem Buffer.Allocated.strlen_ok {buffer : Buffer} (allocated : buffer.Allocated)
    {position : Int} (lower : 0 ≤ position) (upper : position ≤ buffer.size) :
    ∃ length : Nat, strlen buffer.data position = .ok length ∧
      position + length ≤ buffer.size := by
  have total := allocated.length
  have split : buffer.data.drop position.toNat =
      (buffer.data.drop position.toNat).take (buffer.size - position).toNat ++ [0, 0] := by
    conv_lhs => rw [← List.take_append_drop (buffer.size - position).toNat
      (buffer.data.drop position.toNat)]
    rw [List.drop_drop, ← allocated.trailing]
    congr 2
    omega
  have found : 0 ∈ buffer.data.drop position.toNat := by
    rw [split]
    simp
  refine ⟨(buffer.data.drop position.toNat).idxOf 0, if_pos ⟨lower, found⟩, ?_⟩
  have early : (buffer.data.drop position.toNat).idxOf 0 ≤ (buffer.size - position).toNat := by
    rw [split, List.idxOf_append]
    split
    · next member =>
        have bounded := List.idxOf_lt_length_of_mem member
        simp only [List.length_take] at bounded
        omega
    · simp only [List.length_take, List.idxOf_cons_self]
      omega
  omega

theorem Buffer.Allocated.cString_ok {buffer : Buffer} (allocated : buffer.Allocated)
    {position : Int} (lower : 0 ≤ position) (upper : position ≤ buffer.size) :
    ∃ text, cString buffer.data position = .ok text := by
  obtain ⟨length, scanned, bounded⟩ := allocated.strlen_ok lower upper
  have total := allocated.length
  refine ⟨(buffer.data.drop position.toNat).take length, ?_⟩
  simp only [cString, scanned, bind, Except.bind]
  exact readBytes_ok lower (by omega)

/-! ## The operations inside the invariant -/

theorem bufferReset_ok {buffer : Buffer} (allocated : buffer.Allocated) :
    ∃ after, bufferReset buffer = .ok after ∧ after.Allocated ∧ after.Ordered ∧
      after.size = buffer.size := by
  have nonneg := allocated.nonneg
  have small := allocated.small
  have zeros : sizeT buffer.size = buffer.size.toNat := sizeT_of_nonneg nonneg (by omega)
  have front : (0 : Int) + (List.replicate buffer.size.toNat (0 : UInt8)).length ≤ buffer.size := by
    simp only [List.length_replicate]
    omega
  have written := (allocated.toBlock.overwrite _ (le_refl _) front 0 0).1
  refine ⟨_, ?_, allocated.overwrite _ (le_refl _) front 0 buffer.size,
    ⟨le_refl _, nonneg, le_refl _⟩, rfl⟩
  simp only [bufferReset, zeros, written, bind, Except.bind, pure, Except.pure]

/-- The window test of `BufferGet` and `BufferPut` on a sum that does not wrap. -/
theorem window_test {buffer : Buffer} (ordered : buffer.Ordered)
    {size : Int} (lower : 0 ≤ size) (fits : buffer.position + size < 2147483648) :
    int32 (buffer.position + size) = buffer.position + size :=
  int32_of_mem (by have := ordered.nonneg; omega) fits

/-- A sum that wraps is negative, so the window test lets it pass. -/
theorem window_wraps {buffer : Buffer} (block : buffer.Block) (ordered : buffer.Ordered)
    {size : Int} (upper : size < 2147483648) (wraps : ¬ buffer.position + size < 2147483648) :
    ¬ int32 (buffer.position + size) > buffer.limit := by
  have nonneg := ordered.nonneg
  have below := ordered.below
  have within := ordered.within
  have small := block.small
  rw [int32_of_overflow (by omega) (by omega)]
  omega

theorem bufferGet_ok {buffer : Buffer} (block : buffer.Block) (ordered : buffer.Ordered)
    {size : Int} (lower : 0 ≤ size) (fits : buffer.position + size ≤ buffer.limit) :
    bufferGet buffer size = .ok
      (some ((buffer.data.drop buffer.position.toNat).take size.toNat),
        { buffer with position := buffer.position + size }) := by
  have nonneg := ordered.nonneg
  have within := ordered.within
  have small := block.small
  have length := block.length
  have total : sizeT size = size.toNat := sizeT_of_nonneg lower (by omega)
  unfold bufferGet
  rw [window_test ordered lower (by omega), if_neg (by omega), total,
    readBytes_ok nonneg (by omega)]
  rfl

theorem bufferGet_underflow {buffer : Buffer} (ordered : buffer.Ordered) {size : Int}
    (lower : 0 ≤ size) (representable : buffer.position + size < 2147483648)
    (short : buffer.limit < buffer.position + size) :
    bufferGet buffer size = .ok (none, buffer) := by
  unfold bufferGet
  rw [window_test ordered lower representable, if_pos short]

theorem bufferPut_ok {buffer : Buffer} (block : buffer.Block) (ordered : buffer.Ordered)
    {bytes : List UInt8} (fits : buffer.position + bytes.length ≤ buffer.limit) :
    bufferPut buffer bytes bytes.length = .ok
      (true, { buffer with
        data := buffer.data.take buffer.position.toNat ++ bytes ++
          buffer.data.drop (buffer.position.toNat + bytes.length)
        position := buffer.position + bytes.length }) := by
  have nonneg := ordered.nonneg
  have within := ordered.within
  have small := block.small
  have total : sizeT bytes.length = bytes.length := sizeT_natCast (by omega)
  have read : readBytes bytes 0 bytes.length = .ok bytes := by
    rw [readBytes_ok (le_refl _) (by omega)]
    simp
  have written := (block.overwrite bytes nonneg (by omega) 0 0).1
  unfold bufferPut
  rw [window_test ordered (by omega) (by omega), if_neg (by omega), total]
  simp only [read, written, bind, Except.bind, pure, Except.pure]

theorem bufferPut_overflow {buffer : Buffer} (ordered : buffer.Ordered) {bytes : List UInt8}
    (representable : buffer.position + bytes.length < 2147483648)
    (short : buffer.limit < buffer.position + bytes.length) :
    bufferPut buffer bytes bytes.length = .ok (false, buffer) := by
  unfold bufferPut
  rw [window_test ordered (by omega) representable, if_pos short]

@[simp] theorem CString.terminated_length (text : CString) :
    text.terminated.length = text.bytes.length + 1 := by
  simp [CString.terminated]

theorem CString.terminated_idxOf (text : CString) :
    text.terminated.idxOf 0 = text.bytes.length := by
  rw [CString.terminated, List.idxOf_append_of_notMem text.noNul]
  simp

theorem CString.strlen_terminated (text : CString) :
    strlen text.terminated 0 = .ok text.bytes.length := by
  rw [strlen, if_pos ⟨le_refl _, by simp [CString.terminated]⟩]
  simp [text.terminated_idxOf]

/-- `memchr` over the remaining space answers whether text and terminator fit. -/
theorem memchr_remaining {buffer : Buffer} (block : buffer.Block)
    (ordered : buffer.Ordered) (text : CString) :
    memchr text.terminated (sizeT (bufferRemaining buffer)) =
      .ok (decide (buffer.position + text.terminated.length ≤ buffer.limit)) := by
  have nonneg := ordered.nonneg
  have below := ordered.below
  have within := ordered.within
  have small := block.small
  have length := text.terminated_length
  have room : sizeT (bufferRemaining buffer) = (buffer.limit - buffer.position).toNat := by
    rw [bufferRemaining, int32_of_mem (by omega) (by omega)]
    exact sizeT_of_nonneg (by omega) (by omega)
  rw [memchr, text.terminated_idxOf, room]
  by_cases fits : buffer.position + text.terminated.length ≤ buffer.limit
  · rw [if_pos (by omega), decide_eq_true fits]
  · rw [if_neg (by omega), if_pos (by omega), decide_eq_false fits]

theorem bufferPutString_ok {buffer : Buffer} (block : buffer.Block)
    (ordered : buffer.Ordered) (text : CString)
    (fits : buffer.position + text.terminated.length ≤ buffer.limit) :
    bufferPutString buffer text.terminated = .ok
      (true, { buffer with
        data := buffer.data.take buffer.position.toNat ++ text.terminated ++
          buffer.data.drop (buffer.position.toNat + text.terminated.length)
        position := buffer.position + text.terminated.length }) := by
  have nonneg := ordered.nonneg
  have within := ordered.within
  have small := block.small
  have total := text.terminated_length
  have search := memchr_remaining block ordered text
  rw [decide_eq_true fits] at search
  have read : readBytes text.terminated 0 (text.bytes.length + 1) = .ok text.terminated := by
    rw [readBytes_ok (le_refl _) (by omega)]
    exact congrArg Except.ok (List.take_of_length_le (by simp [total]))
  have written := (block.overwrite text.terminated nonneg (by omega) 0 0).1
  have advance : int32 (buffer.position + ((text.bytes.length + 1 : Nat) : Int)) =
      buffer.position + text.terminated.length := by
    rw [total]
    exact int32_of_mem (by omega) (by omega)
  simp only [bufferPutString, search, text.strlen_terminated, read, written, advance, bind,
    Except.bind, pure, Except.pure, if_true]

theorem bufferPutString_overflow {buffer : Buffer} (block : buffer.Block)
    (ordered : buffer.Ordered) (text : CString)
    (short : buffer.limit < buffer.position + text.terminated.length) :
    bufferPutString buffer text.terminated = .ok (false, buffer) := by
  have search := memchr_remaining block ordered text
  rw [decide_eq_false (by omega)] at search
  simp only [bufferPutString, search, bind, Except.bind, pure, Except.pure, Bool.false_eq_true,
    ↓reduceIte]

/-- The trailing bytes after the two terminators that `BufferGetString` may
write at the limit. -/
theorem Buffer.Allocated.terminate {buffer : Buffer} (allocated : buffer.Allocated)
    (ordered : buffer.Ordered) (position : Int) :
    ∃ first data, writeBytes buffer.data buffer.limit [0] = .ok first ∧
      writeBytes first (buffer.limit + 1) [0] = .ok data ∧
      Buffer.Allocated { buffer with data, position } := by
  have nonneg := ordered.nonneg
  have below := ordered.below
  have within := ordered.within
  have length := allocated.length
  have one : (([0] : List UInt8).length : Int) = 1 := rfl
  have firstLength := length_overwrite buffer.data [0]
    (show buffer.limit.toNat + 1 ≤ buffer.data.length by omega)
  have secondLength := length_overwrite
    (buffer.data.take buffer.limit.toNat ++ [0] ++
      buffer.data.drop (buffer.limit.toNat + ([0] : List UInt8).length)) [0]
    (show (buffer.limit + 1).toNat + 1 ≤ _ by rw [firstLength]; omega)
  refine ⟨_, _, writeBytes_ok (by omega) (by omega), writeBytes_ok (by omega) (by omega),
    ⟨allocated.nonneg, allocated.small, ?_⟩, ?_⟩
  · simp only [secondLength, firstLength, length]
  · exact drop_terminate (by omega) (drop_terminate (by omega) allocated.trailing)

theorem bufferGetString_ok {buffer : Buffer} (allocated : buffer.Allocated)
    (ordered : buffer.Ordered) :
    ∃ out after, bufferGetString buffer = .ok (out, after) ∧ after.Allocated ∧ after.Ordered ∧
      after.size = buffer.size := by
  have nonneg := ordered.nonneg
  have below := ordered.below
  have within := ordered.within
  have small := allocated.small
  have remaining : bufferRemaining buffer = buffer.limit - buffer.position :=
    int32_of_mem (by omega) (by omega)
  obtain ⟨scanned, scan, bounded⟩ := allocated.strlen_ok nonneg (by omega)
  have len : int32 (scanned + 1) = scanned + 1 := int32_of_mem (by omega) (by omega)
  by_cases cut : (scanned : Int) + 1 > buffer.limit - buffer.position
  · obtain ⟨first, data, wroteFirst, wroteData, kept⟩ :=
      allocated.terminate ordered (int32 (buffer.position + (buffer.limit - buffer.position)))
    obtain ⟨out, text⟩ := kept.cString_ok nonneg (by simp only; omega)
    have advance : int32 (buffer.position + (buffer.limit - buffer.position)) = buffer.limit :=
      (int32_of_mem (by omega) (by omega)).trans (by omega)
    refine ⟨out, _, ?_, kept, ?_, rfl⟩
    · simp only [bufferGetString, scan, len, remaining, cut, wroteFirst, wroteData, text, bind,
        Except.bind, pure, Except.pure, if_true]
    · exact ⟨by simp only [advance]; omega, by simp only [advance]; omega, within⟩
  · obtain ⟨out, text⟩ := allocated.cString_ok nonneg (by omega)
    have advance : int32 (buffer.position + (scanned + 1)) = buffer.position + (scanned + 1) :=
      int32_of_mem (by omega) (by omega)
    refine ⟨out, { buffer with position := buffer.position + (scanned + 1) }, ?_,
      allocated.move _ _, ?_, rfl⟩
    · simp only [bufferGetString, scan, len, remaining, cut, text, advance, bind, Except.bind,
        pure, Except.pure, if_false]
    · exact ⟨by simp only; omega, by simp only; omega, within⟩

end Aio4c
