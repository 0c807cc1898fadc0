import Mathlib.Tactic.Ring

/-! Fixed-width C integers over unbounded ones. A 32-bit `int` is an `Int`
reduced to its two's-complement value after every addition; a 64-bit `size_t`
is the residue of the converted `int`. -/

set_option autoImplicit false

namespace SignedInt

/-- Two's-complement value of the low 32 bits of an integer. -/
def int32 (value : Int) : Int :=
  (value + 2147483648) % 4294967296 - 2147483648

/-- Conversion of a signed value to a 64-bit `size_t`. -/
def sizeT (value : Int) : Nat :=
  (value % 18446744073709551616).toNat

theorem int32_of_mem {value : Int} (lower : -2147483648 ≤ value) (upper : value < 2147483648) :
    int32 value = value := by
  unfold int32
  omega

theorem int32_mem (value : Int) : -2147483648 ≤ int32 value ∧ int32 value < 2147483648 := by
  unfold int32
  omega

theorem int32_natCast {value : Nat} (small : value < 2147483648) :
    int32 (value : Int) = value :=
  int32_of_mem (by omega) (by omega)

/-- A sum that leaves the 32-bit range upwards comes back as a negative value. -/
theorem int32_of_overflow {value : Int} (lower : 2147483648 ≤ value) (upper : value < 4294967296) :
    int32 value = value - 4294967296 := by
  unfold int32
  omega

theorem sizeT_of_nonneg {value : Int} (lower : 0 ≤ value) (upper : value < 18446744073709551616) :
    sizeT value = value.toNat := by
  unfold sizeT
  rw [Int.emod_eq_of_lt lower upper]

theorem sizeT_natCast {count : Nat} (upper : count < 18446744073709551616) :
    sizeT count = count := by
  rw [sizeT_of_nonneg (by omega) (by omega), Int.toNat_natCast]

/-- A negative value becomes a size that no object has. -/
theorem sizeT_of_neg {value : Int} (lower : -9223372036854775808 ≤ value) (upper : value < 0) :
    9223372036854775808 ≤ sizeT value := by
  unfold sizeT
  omega

end SignedInt
