import Aio4c.Memory

/-! The allocator: every block carries a 4-byte header with its size. -/

set_option autoImplicit false

namespace Aio4c

open SignedInt

/-- `sizeof(int)`, the length of the header in front of a block. -/
def headerSize : Nat := 4

/-- The largest request `malloc` can grant (`PTRDIFF_MAX`). -/
def ptrdiffMax : Nat := 9223372036854775807

/-- `aio4c_malloc`. The outcome of `malloc` is a parameter; `none` is NULL, and
the block granted is returned without its header. Writing the header faults
when the request wrapped below the header's own length. -/
def aio4cMalloc (malloc : Nat → Bool) (size : Int) : Access (Option (List UInt8)) :=
  let request := (sizeT size + headerSize) % 18446744073709551616
  if request ≤ ptrdiffMax ∧ malloc request = true then
    if headerSize ≤ request then .ok (some (List.replicate (request - headerSize) 0))
    else .error .outOfBounds
  else .ok none

theorem aio4cMalloc_granted {malloc : Nat → Bool} {size : Int} {block : List UInt8}
    (lower : 0 ≤ size) (upper : size < 2147483648)
    (granted : aio4cMalloc malloc size = .ok (some block)) :
    block = List.replicate size.toNat 0 := by
  have request : (sizeT size + headerSize) % 18446744073709551616 = size.toNat + 4 := by
    rw [sizeT_of_nonneg lower (by omega), headerSize]
    omega
  simp only [aio4cMalloc, request] at granted
  split at granted
  · split at granted
    · simpa [headerSize] using granted.symm
    · cases granted
  · cases granted

theorem aio4cMalloc_ok {malloc : Nat → Bool} (granted : ∀ request, malloc request = true)
    {size : Int} (lower : 0 ≤ size) (upper : size < 2147483648) :
    aio4cMalloc malloc size = .ok (some (List.replicate size.toNat 0)) := by
  have request : (sizeT size + headerSize) % 18446744073709551616 = size.toNat + 4 := by
    rw [sizeT_of_nonneg lower (by omega), headerSize]
    omega
  simp only [aio4cMalloc, request, granted, and_true]
  rw [if_pos (by unfold ptrdiffMax; omega), if_pos (by unfold headerSize; omega), headerSize,
    Nat.add_sub_cancel]

/-- A negative size short of the header asks for more than any object holds. -/
theorem aio4cMalloc_negative {malloc : Nat → Bool} {size : Int}
    (lower : -2147483648 ≤ size) (upper : size < -4) :
    aio4cMalloc malloc size = .ok none := by
  have request : (sizeT size + headerSize) % 18446744073709551616 =
      (size + 18446744073709551620).toNat := by
    unfold sizeT headerSize
    omega
  simp only [aio4cMalloc, request]
  rw [if_neg]
  intro both
  have bounded := both.1
  unfold ptrdiffMax at bounded
  omega

/-- The requests that do not wrap to more than any object holds. -/
theorem aio4cMalloc_eq (malloc : Nat → Bool) {size : Int} (lower : -4 ≤ size)
    (upper : size < 2147483648) :
    aio4cMalloc malloc size =
      if malloc (size + 4).toNat = true then
        if 0 ≤ size then .ok (some (List.replicate size.toNat 0)) else .error .outOfBounds
      else .ok none := by
  have request : (sizeT size + headerSize) % 18446744073709551616 = (size + 4).toNat := by
    unfold sizeT headerSize
    omega
  have grantable : (size + 4).toNat ≤ ptrdiffMax := by
    unfold ptrdiffMax
    omega
  have rest : (size + 4).toNat - headerSize = size.toNat := by
    unfold headerSize
    omega
  simp only [aio4cMalloc, request, grantable, true_and, rest]
  by_cases nonneg : 0 ≤ size
  · rw [if_pos nonneg, if_pos (show headerSize ≤ (size + 4).toNat by unfold headerSize; omega)]
  · rw [if_neg nonneg, if_neg (show ¬ headerSize ≤ (size + 4).toNat by unfold headerSize; omega)]

theorem aio4cMalloc_natCast (malloc : Nat → Bool) {size : Nat} (small : size < 2147483648) :
    aio4cMalloc malloc size = .ok
      (if malloc (size + headerSize) = true then some (List.replicate size 0) else none) := by
  have request : ((size : Int) + 4).toNat = size + headerSize := by
    unfold headerSize
    omega
  rw [aio4cMalloc_eq malloc (by omega) (by omega), request, if_pos (Int.natCast_nonneg _),
    Int.toNat_natCast]
  split <;> rfl

end Aio4c
