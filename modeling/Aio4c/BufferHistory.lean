import Aio4c.BufferProperties

/-! Histories of buffer calls. A history is safe when every call stays inside
the block and leaves the three numbers ordered; it respects the buffer when the
caller supplies what the checks of the source leave out. -/

set_option autoImplicit false

namespace Aio4c

open SignedInt

/-- The calls a history may contain, with the arguments the caller chooses. -/
inductive BufferCall where
  | flip
  | position (target : Int)
  | limit (target : Int)
  | reset
  | get (size : Int)
  | put (bytes : List UInt8)
  | putString (text : CString)
  | getString

def bufferCall (buffer : Buffer) : BufferCall → Access Buffer
  | .flip => .ok (bufferFlip buffer)
  | .position target => .ok (bufferPosition buffer target).2
  | .limit target => .ok (bufferLimit buffer target).2
  | .reset => bufferReset buffer
  | .get size => (bufferGet buffer size).map Prod.snd
  | .put bytes => (bufferPut buffer bytes bytes.length).map Prod.snd
  | .putString text => (bufferPutString buffer text.terminated).map Prod.snd
  | .getString => (bufferGetString buffer).map Prod.snd

/-- Block sizes run from 0 to the capacity. -/
def BufferCall.SizeWithin (size : Int) : BufferCall → Prop
  | .get count => 0 ≤ count ∧ count ≤ size
  | .put bytes => (bytes.length : Int) ≤ size
  | _ => True

/-- What the checks of the source leave to the caller: no negative position, no
limit below the position, and no block whose end does not fit an `int`. -/
def BufferCall.Respects (buffer : Buffer) : BufferCall → Prop
  | .position target => 0 ≤ target
  | .limit target => buffer.position ≤ target
  | .get size => buffer.position + size < 2147483648
  | .put bytes => buffer.position + bytes.length < 2147483648
  | _ => True

theorem bufferCall_respectful {buffer : Buffer} (allocated : buffer.Allocated)
    (ordered : buffer.Ordered) {call : BufferCall} (sizes : call.SizeWithin buffer.size)
    (respects : call.Respects buffer) :
    ∃ after, bufferCall buffer call = .ok after ∧ after.Allocated ∧ after.Ordered ∧
      after.size = buffer.size := by
  have nonneg := ordered.nonneg
  have below := ordered.below
  have within := ordered.within
  cases call with
  | flip =>
      exact ⟨_, rfl, allocated.move _ _,
        ⟨le_refl _, nonneg, below.trans within⟩, rfl⟩
  | position target =>
      simp only [BufferCall.Respects] at respects
      simp only [bufferCall, bufferPosition]
      split
      · exact ⟨_, rfl, allocated, ordered, rfl⟩
      · exact ⟨_, rfl, allocated.move _ _,
          ⟨respects, by simp only; omega, within⟩, rfl⟩
  | limit target =>
      simp only [BufferCall.Respects] at respects
      simp only [bufferCall, bufferLimit]
      split
      · exact ⟨_, rfl, allocated, ordered, rfl⟩
      · exact ⟨_, rfl, allocated.move _ _,
          ⟨nonneg, respects, by simp only; omega⟩, rfl⟩
  | reset => exact bufferReset_ok allocated
  | get size =>
      by_cases fits : buffer.position + size ≤ buffer.limit
      · have lower := sizes.1
        exact ⟨{ buffer with position := buffer.position + size }, by
          simp only [bufferCall, bufferGet_ok allocated.toBlock ordered lower fits]; rfl,
          allocated.move _ _,
          ⟨by simp only; omega, fits, within⟩, rfl⟩
      · exact ⟨buffer, by
          simp only [bufferCall, bufferGet_underflow ordered sizes.1 respects (by omega)]; rfl,
          allocated, ordered, rfl⟩
  | put bytes =>
      by_cases fits : buffer.position + bytes.length ≤ buffer.limit
      · have kept := allocated.overwrite bytes nonneg (by omega)
          (buffer.position + bytes.length) buffer.limit
        refine ⟨_, ?_, kept, ⟨by simp only; omega, fits, within⟩, rfl⟩
        simp only [bufferCall, bufferPut_ok allocated.toBlock ordered fits]
        rfl
      · exact ⟨buffer, by
          simp only [bufferCall, bufferPut_overflow ordered respects (by omega)]; rfl,
          allocated, ordered, rfl⟩
  | putString text =>
      by_cases fits : buffer.position + text.terminated.length ≤ buffer.limit
      · have kept := allocated.overwrite text.terminated nonneg (by omega)
          (buffer.position + text.terminated.length) buffer.limit
        refine ⟨_, ?_, kept, ⟨by simp only; omega, fits, within⟩, rfl⟩
        simp only [bufferCall, bufferPutString_ok allocated.toBlock ordered text fits]
        rfl
      · exact ⟨buffer, by
          simp only [bufferCall, bufferPutString_overflow allocated.toBlock ordered text (by omega)]; rfl,
          allocated, ordered, rfl⟩
  | getString =>
      obtain ⟨out, after, result, kept, ordered', same⟩ := bufferGetString_ok allocated ordered
      exact ⟨after, by simp only [bufferCall, result]; rfl, kept, ordered', same⟩

/-- Each check that the source leaves out is needed: the call it would have
refused goes through and breaks the order or leaves the block. -/
theorem bufferCall_disrespectful {buffer : Buffer} (allocated : buffer.Allocated)
    (ordered : buffer.Ordered) {call : BufferCall} (sizes : call.SizeWithin buffer.size)
    (disrespects : ¬ call.Respects buffer) {after : Buffer}
    (result : bufferCall buffer call = .ok after) : ¬ after.Ordered := by
  have nonneg := ordered.nonneg
  have below := ordered.below
  have within := ordered.within
  have length := allocated.length
  have small := allocated.small
  cases call with
  | flip | reset | putString | getString => exact absurd trivial disrespects
  | position target =>
      simp only [BufferCall.Respects] at disrespects
      simp only [bufferCall, bufferPosition, if_neg (show ¬ target > buffer.limit by omega),
        Except.ok.injEq] at result
      subst after
      intro broken
      exact disrespects broken.nonneg
  | limit target =>
      simp only [BufferCall.Respects] at disrespects
      simp only [bufferCall, bufferLimit, if_neg (show ¬ target > buffer.size by omega),
        Except.ok.injEq] at result
      subst after
      intro broken
      exact disrespects broken.below
  | get size =>
      simp only [BufferCall.Respects] at disrespects
      have lower := sizes.1
      have upper := sizes.2
      have outside := readBytes_fault buffer.data buffer.position
        size.toNat (by omega) (by omega)
      simp only [bufferCall, bufferGet, if_neg (window_wraps allocated.toBlock ordered (by omega) disrespects),
        sizeT_of_nonneg lower (by omega), outside, bind, Except.bind, Except.map] at result
      cases result
  | put bytes =>
      simp only [BufferCall.Respects] at disrespects
      have upper : (bytes.length : Int) ≤ buffer.size := sizes
      have read : readBytes bytes 0 bytes.length = .ok bytes := by
        rw [readBytes_ok (le_refl _) (by omega)]
        simp
      have outside := writeBytes_fault buffer.data buffer.position
        bytes (by omega) (by omega)
      simp only [bufferCall, bufferPut, if_neg (window_wraps allocated.toBlock ordered (by omega) disrespects),
        sizeT_natCast (show bytes.length < 18446744073709551616 by omega), read, outside, bind,
        Except.bind, Except.map] at result
      cases result

/-! ## Whole histories -/

/-- Every call of the history returns without leaving the block, and the three
numbers are ordered after it. -/
def BufferSafe : Buffer → List BufferCall → Prop
  | _, [] => True
  | buffer, call :: calls =>
      ∃ after, bufferCall buffer call = .ok after ∧ after.Ordered ∧ BufferSafe after calls

/-- Every call of the history respects the buffer it finds. -/
def BufferRespected : Buffer → List BufferCall → Prop
  | _, [] => True
  | buffer, call :: calls =>
      call.Respects buffer ∧
        ∀ after, bufferCall buffer call = .ok after → BufferRespected after calls

theorem bufferSafe_iff_respected {buffer : Buffer} (allocated : buffer.Allocated)
    (ordered : buffer.Ordered) (calls : List BufferCall)
    (sizes : ∀ call ∈ calls, call.SizeWithin buffer.size) :
    BufferSafe buffer calls ↔ BufferRespected buffer calls := by
  induction calls generalizing buffer with
  | nil => exact Iff.rfl
  | cons call calls ih =>
      have here : call.SizeWithin buffer.size := sizes call (by simp)
      have later : ∀ call ∈ calls, call.SizeWithin buffer.size :=
        fun call member => sizes call (by simp [member])
      constructor
      · intro reached
        obtain ⟨after, result, ordered', safe⟩ := reached
        have respects : call.Respects buffer := by
          by_contra disrespects
          exact bufferCall_disrespectful allocated ordered here disrespects result ordered'
        obtain ⟨same, result', kept, _, size⟩ :=
          bufferCall_respectful allocated ordered here respects
        cases result.symm.trans result'
        refine ⟨respects, fun reached reachedResult => ?_⟩
        cases result.symm.trans reachedResult
        exact (ih kept ordered' (size ▸ later)).mp safe
      · intro all
        obtain ⟨respects, rest⟩ := all
        obtain ⟨after, result, kept, ordered', size⟩ :=
          bufferCall_respectful allocated ordered here respects
        exact ⟨after, result, ordered', (ih kept ordered' (size ▸ later)).mpr (rest after result)⟩

/-- A history on a new buffer keeps `0 <= position <= limit <= size` and stays
inside the block exactly when the caller never sets a negative position, a
limit below the position, or a block whose end does not fit an `int`. -/
theorem newBuffer_history_safe_iff {mallocBuffer mallocData : Nat → Bool} {size : Int}
    {buffer : Buffer} (lower : 0 ≤ size) (upper : size < 2147483648)
    (made : newBuffer mallocBuffer mallocData size = .ok (some buffer))
    (calls : List BufferCall) (sizes : ∀ call ∈ calls, call.SizeWithin size) :
    BufferSafe buffer calls ↔ BufferRespected buffer calls := by
  obtain ⟨allocated, ordered, same⟩ := newBuffer_allocated lower upper made
  exact bufferSafe_iff_respected allocated ordered calls (same ▸ sizes)

/-- The equivalence on a buffer of four bytes with a short history. -/
theorem newBuffer_history_of_four :
    BufferSafe { size := 4, data := [0, 0, 0, 0, 0, 0], position := 0, limit := 4 }
        [.put [7, 8], .flip, .get 1, .limit 1] ↔
      BufferRespected { size := 4, data := [0, 0, 0, 0, 0, 0], position := 0, limit := 4 }
        [.put [7, 8], .flip, .get 1, .limit 1] :=
  newBuffer_history_safe_iff (by decide) (by decide)
    (show newBuffer (fun _ => true) (fun _ => true) 4 = _ by rfl) _
    (by simp [BufferCall.SizeWithin])

/-- A single negative position is accepted and breaks the order. -/
theorem newBuffer_history_unordered :
    ¬ ∀ (size : Int) (buffer : Buffer) (calls : List BufferCall), 0 ≤ size → size < 2147483648 →
      newBuffer (fun _ => true) (fun _ => true) size = .ok (some buffer) →
      (∀ call ∈ calls, call.SizeWithin size) → BufferSafe buffer calls := by
  intro claimed
  obtain ⟨after, result, ordered, _⟩ := claimed 4
    { size := 4, data := [0, 0, 0, 0, 0, 0], position := 0, limit := 4 } [.position (-1)]
    (by decide) (by decide) (by rfl) (by simp [BufferCall.SizeWithin])
  cases result
  exact absurd ordered (by decide)

end Aio4c
