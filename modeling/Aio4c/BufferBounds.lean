import Aio4c.BufferTransfer

/-! Where the checks of the buffer calls are the arithmetic they stand for. The
sums wrap like the `int` they are, and a negative `int` is a huge `size_t`. -/

set_option autoImplicit false

namespace Aio4c

open SignedInt

/-! ## Get and put -/

/-- The window test without a wrap. -/
def Buffer.Fits (buffer : Buffer) (size : Int) : Prop :=
  0 ≤ size ∧ size ≤ buffer.limit - buffer.position

instance (buffer : Buffer) (size : Int) : Decidable (buffer.Fits size) :=
  inferInstanceAs (Decidable (_ ∧ _))

/-- `BufferGet` hands out the bytes that fit the window and refuses anything else
without an effect. -/
def GetsWithin (buffer : Buffer) (size : Int) : Prop :=
  bufferGet buffer size =
    if buffer.Fits size then .ok
      (some ((buffer.data.drop buffer.position.toNat).take size.toNat),
        { buffer with position := buffer.position + size })
    else .ok (none, buffer)

/-- `BufferPut` stores the bytes that fit the window and refuses anything else
without an effect. -/
def PutsWithin (buffer : Buffer) (input : List UInt8) (size : Int) : Prop :=
  bufferPut buffer input size =
    if buffer.Fits size then .ok
      (true, { buffer with
        data := buffer.data.take buffer.position.toNat ++ input.take size.toNat ++
          buffer.data.drop (buffer.position.toNat + size.toNat)
        position := buffer.position + size })
    else .ok (false, buffer)

/-- A copy that the window test lets pass and that leaves the block. -/
structure Overruns (buffer : Buffer) (size : Int) : Prop where
  passes : ¬ int32 (buffer.position + size) > buffer.limit
  positive : 0 < sizeT size
  outside : (buffer.data.length : Int) < buffer.position + sizeT size

section

variable {buffer : Buffer} {size : Int}

theorem Overruns.bufferGet (overruns : Overruns buffer size) :
    bufferGet buffer size = .error .outOfBounds := by
  have fault := readBytes_fault buffer.data buffer.position _ overruns.positive overruns.outside
  rw [Aio4c.bufferGet, if_neg overruns.passes, fault]
  rfl

theorem Overruns.bufferPut (overruns : Overruns buffer size) (input : List UInt8) :
    bufferPut buffer input size = .error .outOfBounds := by
  rw [Aio4c.bufferPut, if_neg overruns.passes]
  by_cases supplied : sizeT size ≤ input.length
  · have read : readBytes input 0 (sizeT size) = .ok (input.take (sizeT size)) :=
      readBytes_ok (le_refl _) (by omega)
    have length : (input.take (sizeT size)).length = sizeT size := List.length_take_of_le supplied
    have positive := overruns.positive
    have outside := overruns.outside
    have fault := writeBytes_fault buffer.data buffer.position (input.take (sizeT size))
      (by omega) (by omega)
    simp only [read, fault, bind, Except.bind]
  · have fault := readBytes_fault input 0 (sizeT size) overruns.positive (by omega)
    simp only [fault, bind, Except.bind]

/-- What the window test does not keep out. -/
theorem overruns_of_wrap (block : buffer.Block) (ordered : buffer.Ordered)
    (lower : -2147483648 ≤ size) (upper : size < 2147483648)
    (wrong : ¬ (0 ≤ size ∧ buffer.position + size < 2147483648)) : Overruns buffer size := by
  have nonneg := ordered.nonneg
  have below := ordered.below
  have within := ordered.within
  have small := block.small
  have length := block.length
  by_cases negative : size < 0
  · have huge := sizeT_of_neg (show -9223372036854775808 ≤ size by omega) negative
    refine ⟨?_, by omega, by omega⟩
    rw [int32_of_mem (by omega) (by omega)]
    omega
  · have total : sizeT size = size.toNat := sizeT_of_nonneg (by omega) (by omega)
    exact ⟨window_wraps block ordered upper (by omega), by omega, by omega⟩

theorem bufferPut_take (block : buffer.Block) (ordered : buffer.Ordered) (fits : buffer.Fits size)
    {input : List UInt8} (supplied : size ≤ input.length) :
    bufferPut buffer input size = .ok
      (true, { buffer with
        data := buffer.data.take buffer.position.toNat ++ input.take size.toNat ++
          buffer.data.drop (buffer.position.toNat + size.toNat)
        position := buffer.position + size }) := by
  obtain ⟨lower, room⟩ := fits
  have nonneg := ordered.nonneg
  have within := ordered.within
  have small := block.small
  have total : sizeT size = size.toNat := sizeT_of_nonneg lower (by omega)
  have taken : (input.take size.toNat).length = size.toNat := List.length_take_of_le (by omega)
  have read : readBytes input 0 size.toNat = .ok (input.take size.toNat) :=
    readBytes_ok (le_refl _) (by omega)
  have written := (block.overwrite (input.take size.toNat) nonneg (by omega) 0 0).1
  unfold bufferPut
  rw [window_test ordered lower (by omega), if_neg (by omega), total]
  simp only [read, written, taken, bind, Except.bind, pure, Except.pure]

/-- The calls are exact on every size that is not negative and whose end is an `int`. -/
theorem bufferWindow_exact_iff (block : buffer.Block) (ordered : buffer.Ordered)
    (lower : -2147483648 ≤ size) (upper : size < 2147483648) {input : List UInt8}
    (supplied : size ≤ input.length) :
    (GetsWithin buffer size ↔ 0 ≤ size ∧ buffer.position + size < 2147483648) ∧
      (PutsWithin buffer input size ↔ 0 ≤ size ∧ buffer.position + size < 2147483648) := by
  have refused (sum : 0 ≤ size ∧ buffer.position + size < 2147483648) (short : ¬ buffer.Fits size) :
      int32 (buffer.position + size) > buffer.limit := by
    rw [window_test ordered sum.1 sum.2]
    have past : ¬ size ≤ buffer.limit - buffer.position := fun fits => short ⟨sum.1, fits⟩
    omega
  constructor
  · constructor
    · intro exact
      by_contra wrong
      have overrun := (overruns_of_wrap block ordered lower upper wrong).bufferGet
      rw [GetsWithin, overrun] at exact
      split at exact <;> cases exact
    · intro sum
      unfold GetsWithin
      split
      · next fits => exact bufferGet_ok block ordered sum.1 (by have := fits.2; omega)
      · next short => rw [bufferGet, if_pos (refused sum short)]
  · constructor
    · intro exact
      by_contra wrong
      have overrun := (overruns_of_wrap block ordered lower upper wrong).bufferPut input
      rw [PutsWithin, overrun] at exact
      split at exact <;> cases exact
    · intro sum
      unfold PutsWithin
      split
      · next fits => exact bufferPut_take block ordered fits supplied
      · next short => rw [bufferPut, if_pos (refused sum short)]

end

/-- Two of the four bytes that are left. -/
theorem bufferWindow_exact_two :
    (GetsWithin { size := 4, data := [7, 8, 9, 9, 0, 0], position := 0, limit := 4 } 2 ↔
        (0 : Int) ≤ 2 ∧ (0 : Int) + 2 < 2147483648) ∧
      (PutsWithin { size := 4, data := [7, 8, 9, 9, 0, 0], position := 0, limit := 4 } [1, 2] 2 ↔
        (0 : Int) ≤ 2 ∧ (0 : Int) + 2 < 2147483648) :=
  bufferWindow_exact_iff ⟨by decide, by decide, by decide⟩ (by decide) (by decide) (by decide)
    (by decide)

/-- A negative size is taken for one that fits. -/
theorem bufferWindow_negative :
    ¬ ∀ (buffer : Buffer) (size : Int) (input : List UInt8), buffer.Block → buffer.Ordered →
      -2147483648 ≤ size → size < 2147483648 → size ≤ input.length →
      GetsWithin buffer size ∧ PutsWithin buffer input size := by
  intro claimed
  have both := claimed { size := 4, data := [7, 8, 9, 9, 0, 0], position := 0, limit := 4 } (-1) []
    ⟨by decide, by decide, by decide⟩ (by decide) (by decide) (by decide) (by decide)
  have refused : bufferGet { size := 4, data := [7, 8, 9, 9, 0, 0], position := 0, limit := 4 } (-1) =
      .ok (none, { size := 4, data := [7, 8, 9, 9, 0, 0], position := 0, limit := 4 }) := both.1
  revert refused
  decide

/-! ## Allocation -/

/-- `NewBuffer` returns NULL, or a buffer with room for its size and two bytes more. -/
def NewBufferSound (mallocBuffer mallocData : Nat → Bool) (size : Int) : Prop :=
  newBuffer mallocBuffer mallocData size = .ok none ∨
    ∃ buffer, newBuffer mallocBuffer mallocData size = .ok (some buffer) ∧ 0 ≤ buffer.size ∧
      size + 2 ≤ buffer.data.length

/-- `aio4c_malloc` writes inside the block that `malloc` grants it. -/
def AllocatesInside (malloc : Nat → Bool) (size : Int) : Prop :=
  ∃ block, aio4cMalloc malloc size = .ok block

theorem aio4cMalloc_inside_iff (malloc : Nat → Bool) {size : Int} (lower : -2147483648 ≤ size)
    (upper : size < 2147483648) :
    AllocatesInside malloc size ↔ 0 ≤ size ∨ size < -4 ∨ malloc (size + 4).toNat = false := by
  by_cases short : size < -4
  · refine iff_of_true ⟨none, aio4cMalloc_negative lower short⟩ (.inr (.inl short))
  · have result := aio4cMalloc_eq malloc (show -4 ≤ size by omega) upper
    by_cases granted : malloc (size + 4).toNat = true
    · rw [if_pos granted] at result
      by_cases nonneg : 0 ≤ size
      · rw [if_pos nonneg] at result
        exact iff_of_true ⟨_, result⟩ (.inl nonneg)
      · rw [if_neg nonneg] at result
        refine iff_of_false ?_ (by simp [nonneg, short, granted])
        intro inside
        obtain ⟨block, returned⟩ := inside
        cases result.symm.trans returned
    · rw [if_neg granted] at result
      exact iff_of_true ⟨none, result⟩ (.inr (.inr (Bool.eq_false_iff.mpr granted)))

/-- `NewBuffer` with its structure at hand. -/
theorem newBuffer_eq {mallocBuffer : Nat → Bool} (mallocData : Nat → Bool) (size : Int)
    (granted : mallocBuffer 36 = true) :
    newBuffer mallocBuffer mallocData size =
      (aio4cMalloc mallocData (int32 (size + 2))).map fun block =>
        block.map fun data => { size, data, position := 0, limit := size } := by
  have structure? := aio4cMalloc_eq mallocBuffer (show -4 ≤ bufferStructSize by decide) (by decide)
  have request : (bufferStructSize + 4).toNat = 36 := rfl
  rw [request, if_pos granted, if_pos (show 0 ≤ bufferStructSize by decide)] at structure?
  simp only [newBuffer, structure?, bind, Except.bind, pure, Except.pure]
  cases aio4cMalloc mallocData (int32 (size + 2)) with
  | error fault => rfl
  | ok block =>
      cases block with
      | none => rfl
      | some data => rfl

theorem newBuffer_refused {mallocBuffer : Nat → Bool} (mallocData : Nat → Bool) (size : Int)
    (refused : mallocBuffer 36 = false) : newBuffer mallocBuffer mallocData size = .ok none := by
  have structure? := aio4cMalloc_eq mallocBuffer (show -4 ≤ bufferStructSize by decide) (by decide)
  have request : (bufferStructSize + 4).toNat = 36 := rfl
  rw [request, if_neg (by simp [refused])] at structure?
  simp only [newBuffer, structure?, bind, Except.bind, pure, Except.pure]

theorem newBuffer_window {mallocBuffer mallocData : Nat → Bool} {size : Int} {buffer : Buffer}
    (made : newBuffer mallocBuffer mallocData size = .ok (some buffer)) :
    buffer.position = 0 ∧ buffer.limit = size := by
  cases granted : mallocBuffer 36 with
  | false =>
      rw [newBuffer_refused mallocData size granted] at made
      cases made
  | true =>
      rw [newBuffer_eq mallocData size granted] at made
      cases data? : aio4cMalloc mallocData (int32 (size + 2)) with
      | error fault => simp [data?, Except.map] at made
      | ok block =>
          cases block with
          | none => simp [data?, Except.map] at made
          | some data =>
              simp only [data?, Except.map, Option.map_some, Except.ok.injEq,
                Option.some.injEq] at made
              subst made
              exact ⟨rfl, rfl⟩

/-- The sizes from -6 to -1 are the ones whose request neither fails nor is enough. -/
theorem newBuffer_sound_iff (mallocBuffer mallocData malloc : Nat → Bool) {size : Int}
    (lower : -2147483648 ≤ size) (upper : size < 2147483648) :
    (NewBufferSound mallocBuffer mallocData size ↔
        0 ≤ size ∨ size < -6 ∨ mallocBuffer 36 = false ∨ mallocData (size + 6).toNat = false) ∧
      (AllocatesInside malloc size ↔
        0 ≤ size ∨ size < -4 ∨ malloc (size + 4).toNat = false) := by
  refine ⟨?_, aio4cMalloc_inside_iff malloc lower upper⟩
  by_cases granted : mallocBuffer 36 = true
  · unfold NewBufferSound
    rw [newBuffer_eq mallocData size granted]
    by_cases wraps : 2147483648 ≤ size + 2
    · -- near the largest `int` the sum is negative and no allocator grants the request
      rw [int32_of_overflow wraps (by omega), aio4cMalloc_negative (by omega) (by omega)]
      exact iff_of_true (.inl rfl) (.inl (by omega))
    · rw [int32_of_mem (by omega) (by omega)]
      by_cases short : size + 2 < -4
      · rw [aio4cMalloc_negative (by omega) short]
        exact iff_of_true (.inl rfl) (.inr (.inl (by omega)))
      · have sum : size + 2 + 4 = size + 6 := by omega
        rw [aio4cMalloc_eq mallocData (show -4 ≤ size + 2 by omega) (by omega), sum]
        by_cases grantedData : mallocData (size + 6).toNat = true
        · rw [if_pos grantedData]
          by_cases nonneg : 0 ≤ size
          · rw [if_pos (show 0 ≤ size + 2 by omega)]
            refine iff_of_true (.inr ⟨_, rfl, nonneg, ?_⟩) (.inl nonneg)
            simp only [List.length_replicate]
            omega
          · refine iff_of_false ?_ (by simp [nonneg, granted, grantedData]; omega)
            by_cases usable : 0 ≤ size + 2
            · rw [if_pos usable]
              intro sound
              rcases sound with null | ⟨buffer, made, sized, _⟩
              · cases null
              · cases made
                exact nonneg sized
            · rw [if_neg usable]
              intro sound
              rcases sound with null | ⟨buffer, made, _⟩
              · cases null
              · cases made
        · rw [if_neg grantedData]
          exact iff_of_true (.inl rfl) (.inr (.inr (.inr (Bool.eq_false_iff.mpr grantedData))))
  · have refused := Bool.eq_false_iff.mpr granted
    refine iff_of_true (.inl (newBuffer_refused mallocData size refused)) ?_
    exact .inr (.inr (.inl refused))

/-- A new buffer of four bytes. -/
theorem newBuffer_sound_four :
    (NewBufferSound (fun _ => true) (fun _ => true) 4 ↔
        (0 : Int) ≤ 4 ∨ (4 : Int) < -6 ∨ true = false ∨ true = false) ∧
      (AllocatesInside (fun _ => true) 4 ↔ (0 : Int) ≤ 4 ∨ (4 : Int) < -4 ∨ true = false) :=
  newBuffer_sound_iff (fun _ => true) (fun _ => true) (fun _ => true) (by decide) (by decide)

/-- The buffer of size -1 has a block of one byte; the one of size -3 is not even
written inside its block. -/
theorem newBuffer_negative :
    ¬ ∀ (mallocBuffer mallocData malloc : Nat → Bool) (size : Int), -2147483648 ≤ size →
      size < 2147483648 → NewBufferSound mallocBuffer mallocData size ∧
        AllocatesInside malloc size := by
  intro claimed
  have both := claimed (fun _ => true) (fun _ => true) (fun _ => true) (-1) (by decide) (by decide)
  have made : newBuffer (fun _ => true) (fun _ => true) (-1) =
      .ok (some { size := -1, data := [0], position := 0, limit := -1 }) := by rfl
  rcases both.1 with null | ⟨buffer, returned, sized, _⟩
  · cases made.symm.trans null
  · cases made.symm.trans returned
    exact absurd sized (by decide)

/-! ## Copy -/

/-- How many bytes the `memcpy` of `BufferCopy` moves. -/
def copyCount (src : Buffer) : Nat :=
  sizeT (bufferRemaining src)

/-- The destination of a `BufferCopy`: the bytes copied from the start of the source's
window, zeros behind them, and the two bytes behind the capacity as they were. -/
structure Copied (dst src after : Buffer) : Prop where
  block : after.Block
  ordered : after.Ordered
  size : after.size = dst.size
  position : after.position = 0
  limit : after.limit = copyCount src
  data : after.data = src.window.take (copyCount src) ++
    List.replicate (dst.size.toNat - copyCount src) 0 ++ dst.data.drop dst.size.toNat
  whole : src.window.length ≤ dst.size → copyCount src = src.window.length

theorem bufferReset_eq {buffer : Buffer} (block : buffer.Block) :
    bufferReset buffer = .ok { buffer with
      data := List.replicate buffer.size.toNat 0 ++ buffer.data.drop buffer.size.toNat
      position := 0, limit := buffer.size } := by
  have nonneg := block.nonneg
  have small := block.small
  have zeros : sizeT buffer.size = buffer.size.toNat := sizeT_of_nonneg nonneg (by omega)
  have written := (block.overwrite (List.replicate buffer.size.toNat 0) (le_refl 0)
    (by simp only [List.length_replicate]; omega) 0 0).1
  simp only [bufferReset, zeros, written, bind, Except.bind, pure, Except.pure, Int.toNat_zero,
    List.take_zero, List.nil_append, List.length_replicate, Nat.zero_add]

theorem bufferCopy_eq {dst src : Buffer} (block : dst.Block) (blockSrc : src.Block)
    (ordered : src.Ordered) (fits : src.limit - src.position ≤ dst.size) :
    bufferCopy dst src = .ok { dst with
      data := src.window ++ List.replicate (dst.size.toNat - src.window.length) 0 ++
        dst.data.drop dst.size.toNat
      position := 0, limit := src.limit - src.position } := by
  have nonneg := ordered.nonneg
  have within := ordered.within
  have lengthSrc := blockSrc.length
  have length := block.length
  have total := Buffer.window_length blockSrc ordered
  have read : readBytes src.data src.position (src.limit - src.position).toNat = .ok src.window :=
    readBytes_ok nonneg (by have := ordered.below; omega)
  have reset : Buffer.Block { dst with
      data := List.replicate dst.size.toNat 0 ++ dst.data.drop dst.size.toNat
      position := 0, limit := dst.size } :=
    ⟨block.nonneg, block.small, by
      simp only [List.length_append, List.length_replicate, List.length_drop]
      omega⟩
  have written := (reset.overwrite src.window (le_refl 0) (by simp only; omega) 0 0).1
  have rest : (List.replicate dst.size.toNat (0 : UInt8) ++ dst.data.drop dst.size.toNat).drop
      src.window.length = List.replicate (dst.size.toNat - src.window.length) 0 ++
        dst.data.drop dst.size.toNat := by
    rw [List.drop_append_of_le_length (by simp only [List.length_replicate]; omega),
      List.drop_replicate]
  simp only [Int.toNat_zero, List.take_zero, List.nil_append, Nat.zero_add, rest] at written
  have cut := sizeT_remaining blockSrc ordered
  rw [remaining_ok blockSrc ordered] at cut
  simp only [bufferCopy, bufferReset_eq block, remaining_ok blockSrc ordered, cut, read, written,
    bind, Except.bind, pure, Except.pure, bufferLimit, if_neg (show ¬ src.limit - src.position >
      dst.size by omega), List.append_assoc]

/-- `BufferCopy` keeps its destination well formed exactly when the window of the source
is no longer than the destination. -/
theorem bufferCopy_copied_iff {dst src : Buffer} (block : dst.Block) (blockSrc : src.Block)
    (orderedSrc : src.Ordered) :
    (∃ after, bufferCopy dst src = .ok after ∧ Copied dst src after) ↔
      src.limit - src.position ≤ dst.size := by
  have count : copyCount src = (src.limit - src.position).toNat :=
    sizeT_remaining blockSrc orderedSrc
  have below := orderedSrc.below
  constructor
  · intro copied
    obtain ⟨after, _, copied⟩ := copied
    have within := copied.ordered.within
    have limit := copied.limit
    have size := copied.size
    omega
  · intro fits
    have total := Buffer.window_length blockSrc orderedSrc
    have whole : copyCount src = src.window.length := by omega
    have length := block.length
    have nonneg := block.nonneg
    refine ⟨_, bufferCopy_eq block blockSrc orderedSrc fits, ⟨⟨nonneg, block.small, ?_⟩,
      ⟨le_refl _, by simp only; omega, fits⟩, rfl, rfl, by simp only; omega, ?_, fun _ => whole⟩⟩
    · simp only [List.length_append, List.length_replicate, List.length_drop]
      omega
    · rw [whole, List.take_length]

/-- A window of two bytes into a buffer of four. -/
theorem bufferCopy_copied_two :
    (∃ after, bufferCopy { size := 4, data := [9, 9, 9, 9, 0, 0], position := 1, limit := 3 }
        { size := 3, data := [5, 6, 7, 0, 0], position := 1, limit := 3 } = .ok after ∧
      Copied { size := 4, data := [9, 9, 9, 9, 0, 0], position := 1, limit := 3 }
        { size := 3, data := [5, 6, 7, 0, 0], position := 1, limit := 3 } after) ↔
      (3 : Int) - 1 ≤ 4 :=
  bufferCopy_copied_iff ⟨by decide, by decide, by decide⟩ ⟨by decide, by decide, by decide⟩
    (by decide)

/-- A window of three bytes overwrites the terminators of a buffer of two and leaves
the limit behind. -/
theorem bufferCopy_too_long :
    ¬ ∀ dst src : Buffer, dst.Block → dst.Ordered → src.Block → src.Ordered →
      ∃ after, bufferCopy dst src = .ok after ∧ Copied dst src after := by
  intro claimed
  obtain ⟨after, result, copied⟩ := claimed
    { size := 2, data := [9, 9, 0, 0], position := 0, limit := 2 }
    { size := 3, data := [5, 6, 7, 0, 0], position := 0, limit := 3 }
    ⟨by decide, by decide, by decide⟩ (by decide) ⟨by decide, by decide, by decide⟩ (by decide)
  cases result
  exact absurd copied.limit (by decide)

end Aio4c
