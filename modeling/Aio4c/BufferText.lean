import Aio4c.BufferBounds
import Aio4c.BufferCodec
import Aio4c.BufferHistory
import Mathlib.Data.List.TakeWhile

/-! `BufferGetString` on any buffer that a program can bring about. The scan ignores the
limit; the two NUL bytes behind the capacity, which every other call leaves alone, are
what ends it. -/

set_option autoImplicit false

namespace Aio4c

open SignedInt

/-! ## Buffers that a program can bring about -/

/-- The number of bytes that `BufferPut` is given is an `int`. -/
def BufferCall.Argument : BufferCall → Prop
  | .put bytes => bytes.length < 2147483648
  | _ => True

/-- A new buffer, and what calls that keep the three numbers ordered make of it: the calls
of a history, copies that fit, and bytes that a caller stores in the window through
`BufferGetBytes`. -/
inductive Buffer.Reached : Buffer → Prop where
  | created (mallocBuffer mallocData : Nat → Bool) (size : Int) {buffer : Buffer} :
      -2147483648 ≤ size → size < 2147483648 →
      newBuffer mallocBuffer mallocData size = .ok (some buffer) → buffer.Ordered →
      Reached buffer
  | called (call : BufferCall) {buffer after : Buffer} :
      Reached buffer → call.Argument → bufferCall buffer call = .ok after → after.Ordered →
      Reached after
  | copied {dst src after : Buffer} :
      Reached dst → src.Block → src.Ordered → src.limit - src.position ≤ dst.size →
      bufferCopy dst src = .ok after → Reached after
  | filled (offset : Int) (bytes : List UInt8) {buffer : Buffer} {data : List UInt8} :
      Reached buffer → buffer.position ≤ offset → offset + bytes.length ≤ buffer.limit →
      writeBytes buffer.data offset bytes = .ok data → Reached { buffer with data }

/-- A block that is larger than any buffer is not stored. -/
theorem bufferPut_allocated {buffer after : Buffer} (allocated : buffer.Allocated)
    (ordered : buffer.Ordered) {bytes : List UInt8} (small : bytes.length < 2147483648)
    {accepted : Bool} (put : bufferPut buffer bytes bytes.length = .ok (accepted, after)) :
    after.Allocated := by
  have nonneg := ordered.nonneg
  have within := ordered.within
  by_cases sum : buffer.position + bytes.length < 2147483648
  · by_cases fits : buffer.position + bytes.length ≤ buffer.limit
    · rw [bufferPut_ok allocated.toBlock ordered fits] at put
      cases put
      exact allocated.overwrite bytes nonneg (by omega) _ _
    · rw [bufferPut_overflow ordered sum (by omega)] at put
      cases put
      exact allocated
  · have overruns : Overruns buffer bytes.length :=
      overruns_of_wrap allocated.toBlock ordered (by omega) (by omega) (fun both => sum both.2)
    rw [overruns.bufferPut bytes] at put
    cases put

theorem bufferGet_same {buffer after : Buffer} {size : Int} {out : Option (List UInt8)}
    (got : bufferGet buffer size = .ok (out, after)) :
    after.size = buffer.size ∧ after.data = buffer.data := by
  unfold bufferGet at got
  split at got
  · cases got
    exact ⟨rfl, rfl⟩
  · obtain ⟨_, _, made⟩ := Access.bind_ok got
    cases made
    exact ⟨rfl, rfl⟩

/-- Every call leaves the block and its two last bytes as they are. -/
theorem bufferCall_allocated {buffer after : Buffer} (allocated : buffer.Allocated)
    (ordered : buffer.Ordered) {call : BufferCall} (argument : call.Argument)
    (result : bufferCall buffer call = .ok after) : after.Allocated := by
  have regular (sizes : call.SizeWithin buffer.size) (respects : call.Respects buffer) :
      after.Allocated := by
    obtain ⟨same, returned, kept, _, _⟩ :=
      bufferCall_respectful allocated ordered sizes respects
    cases result.symm.trans returned
    exact kept
  cases call with
  | flip | reset | putString text | getString => exact regular trivial trivial
  | position target =>
      simp only [bufferCall, bufferPosition, Except.ok.injEq] at result
      subst result
      split
      · exact allocated
      · exact allocated.move _ _
  | limit target =>
      simp only [bufferCall, bufferLimit, Except.ok.injEq] at result
      subst result
      split
      · exact allocated
      · exact allocated.move _ _
  | get size =>
      cases got : bufferGet buffer size with
      | error fault => simp [bufferCall, got, Except.map] at result
      | ok outcome =>
          simp only [bufferCall, got, Except.map, Except.ok.injEq] at result
          obtain ⟨sized, data⟩ := bufferGet_same (got.trans rfl : _ = .ok (outcome.1, outcome.2))
          rw [result] at sized data
          exact ⟨⟨sized ▸ allocated.nonneg, sized ▸ allocated.small, by
            rw [data, sized, allocated.length]⟩, by rw [data, sized, allocated.trailing]⟩
  | put bytes =>
      cases put : bufferPut buffer bytes bytes.length with
      | error fault => simp [bufferCall, put, Except.map] at result
      | ok outcome =>
          simp only [bufferCall, put, Except.map, Except.ok.injEq] at result
          have kept := bufferPut_allocated allocated ordered argument
            (put.trans rfl : _ = .ok (outcome.1, outcome.2))
          rwa [result] at kept

/-- The two bytes behind the capacity are NUL in every buffer reached. -/
theorem Buffer.Reached.sound {buffer : Buffer} (reached : buffer.Reached) :
    buffer.Allocated ∧ buffer.Ordered := by
  induction reached with
  | created _ _ _ _ upper made ordered =>
      obtain ⟨start, whole⟩ := newBuffer_window made
      have nonneg := ordered.nonneg
      have below := ordered.below
      exact ⟨(newBuffer_allocated (by omega) upper made).1, ordered⟩
  | called _ _ argument result ordered ih =>
      exact ⟨bufferCall_allocated ih.1 ih.2 argument result, ordered⟩
  | copied _ block ordered fits result ih =>
      obtain ⟨after, returned, kept, ordered', _⟩ := bufferCopy_ok ih.1 block ordered fits
      cases result.symm.trans returned
      exact ⟨kept, ordered'⟩
  | filled offset bytes _ front behind written ih =>
      obtain ⟨allocated, ordered⟩ := ih
      have nonneg := ordered.nonneg
      have within := ordered.within
      have stored := (allocated.toBlock.overwrite bytes (show 0 ≤ offset by omega) (by omega) 0 0).1
      cases stored.symm.trans written
      exact ⟨allocated.overwrite bytes (show 0 ≤ offset by omega) (by omega) _ _,
        ⟨nonneg, ordered.below, within⟩⟩

/-! ## The text at the position -/

/-- The bytes from the position up to the first NUL or the limit. -/
def Buffer.text (buffer : Buffer) : List UInt8 :=
  buffer.window.takeWhile (· ≠ 0)

theorem notMem_takeWhile (bytes : List UInt8) : 0 ∉ bytes.takeWhile (· ≠ 0) := by
  intro member
  simpa using List.mem_takeWhile_imp member

/-- A NUL byte ends the text in front of it. -/
theorem takeWhile_terminated {bytes : List UInt8} (nul : 0 ∈ bytes) :
    ∃ rest, bytes = bytes.takeWhile (· ≠ 0) ++ 0 :: rest := by
  induction bytes with
  | nil => simp at nul
  | cons byte bytes ih =>
      by_cases zero : byte = 0
      · exact ⟨bytes, by simp [zero]⟩
      · have later : 0 ∈ bytes := by simpa [Ne.symm zero] using nul
        obtain ⟨rest, split⟩ := ih later
        refine ⟨rest, ?_⟩
        simp only [ne_eq, zero, not_false_eq_true, decide_true, List.takeWhile_cons_of_pos,
          List.cons_append, List.cons.injEq, true_and]
        exact split

theorem takeWhile_unterminated {bytes : List UInt8} (unterminated : 0 ∉ bytes) :
    bytes.takeWhile (· ≠ 0) = bytes := by
  rw [List.takeWhile_eq_self_iff]
  intro byte member
  simp only [ne_eq, decide_eq_true_eq]
  intro zero
  exact unterminated (zero ▸ member)

theorem Buffer.drop_position {buffer : Buffer} (ordered : buffer.Ordered) :
    buffer.data.drop buffer.position.toNat =
      buffer.window ++ buffer.data.drop buffer.limit.toNat := by
  have nonneg := ordered.nonneg
  have below := ordered.below
  have sum : buffer.limit.toNat =
      buffer.position.toNat + (buffer.limit - buffer.position).toNat := by omega
  rw [Buffer.window, sum, ← List.drop_drop, List.take_append_drop]

/-- The two terminators that `BufferGetString` stores behind a text without one. -/
def Buffer.cutData (buffer : Buffer) : List UInt8 :=
  (buffer.data.set buffer.limit.toNat 0).set (buffer.limit.toNat + 1) 0

theorem writeBytes_nul {block : List UInt8} {offset : Int} (lower : 0 ≤ offset)
    (upper : offset < block.length) :
    writeBytes block offset [0] = .ok (block.set offset.toNat 0) := by
  have inside : offset.toNat < block.length := by omega
  rw [writeBytes_ok lower (by simp only [List.length_singleton]; omega),
    List.set_eq_take_append_cons_drop, if_pos inside]
  simp

/-- Behind the two stores the text is terminated at the limit. -/
theorem Buffer.cutData_drop {buffer : Buffer} (block : buffer.Block) (ordered : buffer.Ordered) :
    ∃ rest, buffer.cutData.drop buffer.position.toNat = buffer.window ++ 0 :: rest := by
  have nonneg := ordered.nonneg
  have below := ordered.below
  have within := ordered.within
  have length := block.length
  have total := Buffer.window_length block ordered
  have inside : buffer.limit.toNat < buffer.data.length := by omega
  have first : (buffer.data.set buffer.limit.toNat 0).drop buffer.position.toNat =
      buffer.window ++ 0 :: buffer.data.drop (buffer.limit.toNat + 1) := by
    have place : buffer.limit.toNat - buffer.position.toNat = buffer.window.length := by omega
    rw [List.drop_set, if_neg (by omega), Buffer.drop_position ordered, place,
      List.set_append_right _ _ (le_refl _), Nat.sub_self, List.drop_eq_getElem_cons inside,
      List.set_cons_zero]
  refine ⟨(buffer.data.drop (buffer.limit.toNat + 1)).set 0 0, ?_⟩
  have place : buffer.limit.toNat + 1 - buffer.position.toNat = buffer.window.length + 1 := by omega
  rw [Buffer.cutData, List.drop_set, if_neg (by omega), first, place,
    List.set_append_right _ _ (by omega), Nat.add_sub_cancel_left, List.set_cons_succ]

theorem bufferGetString_cut {buffer : Buffer} (allocated : buffer.Allocated)
    (ordered : buffer.Ordered) (unterminated : 0 ∉ buffer.window) :
    bufferGetString buffer = .ok
      (buffer.window, { buffer with data := buffer.cutData, position := buffer.limit }) := by
  have nonneg := ordered.nonneg
  have below := ordered.below
  have within := ordered.within
  have small := allocated.small
  have length := allocated.length
  have total := Buffer.window_length allocated.toBlock ordered
  obtain ⟨scanned, scan, bounded⟩ := allocated.strlen_ok nonneg (by omega)
  have past : buffer.window.length ≤ scanned := by
    rw [strlen] at scan
    split at scan
    · rw [Buffer.drop_position ordered, List.idxOf_append_of_notMem unterminated] at scan
      cases scan
      omega
    · cases scan
  have len : int32 (scanned + 1) = scanned + 1 := int32_of_mem (by omega) (by omega)
  have cut : (scanned : Int) + 1 > buffer.limit - buffer.position := by omega
  have wroteFirst : writeBytes buffer.data buffer.limit [0] =
      .ok (buffer.data.set buffer.limit.toNat 0) := writeBytes_nul (by omega) (by omega)
  have next : (buffer.limit + 1).toNat = buffer.limit.toNat + 1 := by omega
  have wroteData : writeBytes (buffer.data.set buffer.limit.toNat 0) (buffer.limit + 1) [0] =
      .ok buffer.cutData := by
    rw [writeBytes_nul (by omega) (by simp only [List.length_set]; omega), next]
    rfl
  obtain ⟨rest, content⟩ := Buffer.cutData_drop allocated.toBlock ordered
  have out : cString buffer.cutData buffer.position = .ok buffer.window := by
    have terminated : buffer.cutData.drop buffer.position.toNat =
        CString.terminated ⟨buffer.window, unterminated⟩ ++ rest := by
      rw [content, CString.terminated, List.append_assoc]
      rfl
    exact cString_of_terminated nonneg terminated
  have advance : int32 (buffer.position + (buffer.limit - buffer.position)) = buffer.limit :=
    (int32_of_mem (by omega) (by omega)).trans (by omega)
  simp only [bufferGetString, scan, len, remaining_ok allocated.toBlock ordered, cut, wroteFirst,
    wroteData, out, advance, bind, Except.bind, pure, Except.pure, if_true]

/-- What `BufferGetString` leaves behind. -/
structure GetStringExact (buffer after : Buffer) : Prop where
  reached : after.Reached
  size : after.size = buffer.size
  limit : after.limit = buffer.limit
  position : after.position = min (buffer.position + buffer.text.length + 1) buffer.limit
  kept : ∀ i : Nat, 0 ∈ buffer.window ∨ (i : Int) ≠ buffer.limit ∧ (i : Int) ≠ buffer.limit + 1 →
    after.data[i]? = buffer.data[i]?
  cut : 0 ∉ buffer.window →
    after.data[buffer.limit.toNat]? = some 0 ∧ after.data[buffer.limit.toNat + 1]? = some 0
  trailing : buffer.data.drop buffer.size.toNat = [0, 0] ∧ after.data.drop after.size.toNat = [0, 0]

/-- On every buffer reached `BufferGetString` stays in the block and returns the bytes up
to the first NUL or the limit, which it passes. -/
theorem bufferGetString_exact {buffer : Buffer} (reached : buffer.Reached) :
    ∃ after, bufferGetString buffer = .ok (buffer.text, after) ∧ GetStringExact buffer after := by
  obtain ⟨allocated, ordered⟩ := reached.sound
  have nonneg := ordered.nonneg
  have below := ordered.below
  have within := ordered.within
  have length := allocated.length
  have total := Buffer.window_length allocated.toBlock ordered
  by_cases nul : 0 ∈ buffer.window
  · obtain ⟨rest, split⟩ := takeWhile_terminated nul
    have counted := congrArg List.length split
    simp only [List.length_append, List.length_cons] at counted
    have content : buffer.data.drop buffer.position.toNat =
        CString.terminated ⟨buffer.text, notMem_takeWhile _⟩ ++
          (rest ++ buffer.data.drop buffer.limit.toNat) := by
      rw [Buffer.drop_position ordered]
      conv_lhs => rw [split]
      simp [CString.terminated, Buffer.text]
    have short : buffer.position + buffer.text.length + 1 ≤ buffer.limit := by
      simp only [Buffer.text]
      omega
    have result := bufferGetString_text allocated.toBlock ordered content
      (by simp only [CString.terminated_length]; omega)
    simp only [CString.terminated_length] at result
    refine ⟨_, result, ⟨.called .getString reached trivial ?_ ?_, rfl, rfl, ?_, ?_, ?_,
      ⟨allocated.trailing, allocated.trailing⟩⟩⟩
    · simp only [bufferCall, result, Except.map]
    · exact ⟨by simp only; omega, by simp only; omega, within⟩
    · simp only
      omega
    · exact fun _ _ => rfl
    · exact fun unterminated => absurd nul unterminated
  · have whole : buffer.text = buffer.window := takeWhile_unterminated nul
    have result := bufferGetString_cut allocated ordered nul
    have ordered' : Buffer.Ordered
        { buffer with data := buffer.cutData, position := buffer.limit } :=
      ⟨by simp only; omega, le_refl _, within⟩
    have after : Buffer.Reached { buffer with data := buffer.cutData, position := buffer.limit } :=
      .called .getString reached trivial
        (by simp only [bufferCall, result, Except.map]) ordered'
    refine ⟨_, by rw [result, whole], ⟨after, rfl, rfl, ?_, ?_, ?_,
      ⟨allocated.trailing, after.sound.1.trailing⟩⟩⟩
    · rw [whole]
      simp only
      omega
    · intro i spared
      have outside := spared.resolve_left nul
      simp only [Buffer.cutData]
      rw [List.getElem?_set_ne (by omega), List.getElem?_set_ne (by omega)]
    · intro _
      constructor
      · simp only [Buffer.cutData]
        rw [List.getElem?_set_ne (by omega), List.getElem?_set_self (by omega)]
      · simp only [Buffer.cutData]
        exact List.getElem?_set_self (by simp only [List.length_set]; omega)

/-- A buffer of two bytes without a NUL among them. -/
theorem bufferGetString_exact_full :
    ∃ after, bufferGetString { size := 2, data := [65, 66, 0, 0], position := 0, limit := 2 } =
        .ok (Buffer.text { size := 2, data := [65, 66, 0, 0], position := 0, limit := 2 }, after) ∧
      GetStringExact { size := 2, data := [65, 66, 0, 0], position := 0, limit := 2 } after := by
  have created : Buffer.Reached { size := 2, data := [0, 0, 0, 0], position := 0, limit := 2 } :=
    .created (fun _ => true) (fun _ => true) 2 (by decide) (by decide) (by rfl) (by decide)
  exact bufferGetString_exact
    (.filled 0 [65, 66] created (by decide) (by decide) (by rfl))

end Aio4c
