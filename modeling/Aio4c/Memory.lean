import Aio4c.Library.SignedInt
import Mathlib.Data.List.Basic

/-! Byte blocks and the C library calls that touch them. A block is the list of
its usable bytes; a call that would read or write outside it is a fault, so
code that returns a value has stayed inside its blocks. -/

set_option autoImplicit false

namespace Aio4c

open SignedInt

/-- Undefined behaviour of an access: the only outcome beside a value. -/
inductive Fault where
  | outOfBounds
  deriving DecidableEq, Repr

abbrev Access := Except Fault

theorem Access.bind_ok {α β : Type} {source : Access α} {continuation : α → Access β} {result : β}
    (success : (source >>= continuation) = .ok result) :
    ∃ value, source = .ok value ∧ continuation value = .ok result := by
  cases source with
  | error fault => simp [bind, Except.bind] at success
  | ok value => exact ⟨value, rfl, success⟩

theorem Access.bind_fails {α β : Type} {source : Access α} {rest : α → Access β}
    (fails : ∀ value, rest value = .error .outOfBounds) :
    (source >>= rest) = .error .outOfBounds := by
  cases source with
  | error fault => cases fault; rfl
  | ok value => exact fails value

theorem Access.toOption_bind {α β : Type} {source : Access α} {rest : α → Option β} {result : β}
    (success : source.toOption.bind rest = some result) :
    ∃ value, source = .ok value ∧ rest value = some result := by
  cases source with
  | error fault => simp [Except.toOption] at success
  | ok value => exact ⟨value, rfl, success⟩

/-- `memcpy` out of a block. Copying no byte touches no byte. -/
def readBytes (block : List UInt8) (offset : Int) (count : Nat) : Access (List UInt8) :=
  if count = 0 then .ok []
  else if 0 ≤ offset ∧ offset + count ≤ block.length then
    .ok ((block.drop offset.toNat).take count)
  else .error .outOfBounds

def writeBytes (block : List UInt8) (offset : Int) (bytes : List UInt8) : Access (List UInt8) :=
  if bytes = [] then .ok block
  else if 0 ≤ offset ∧ offset + bytes.length ≤ block.length then
    .ok (block.take offset.toNat ++ bytes ++ block.drop (offset.toNat + bytes.length))
  else .error .outOfBounds

/-- `memchr` for the NUL byte: whether one of the first `count` bytes is NUL.
The scan stops at the first NUL and faults when it runs off the block. -/
def memchr (block : List UInt8) (count : Nat) : Access Bool :=
  if block.idxOf 0 < min count block.length then .ok true
  else if count ≤ block.length then .ok false
  else .error .outOfBounds

/-- `strlen` of the text at an offset of a block. -/
def strlen (block : List UInt8) (offset : Int) : Access Nat :=
  if 0 ≤ offset ∧ 0 ∈ block.drop offset.toNat then
    .ok ((block.drop offset.toNat).idxOf 0)
  else .error .outOfBounds

/-- The C string at an offset of a block, without its terminator. -/
def cString (block : List UInt8) (offset : Int) : Access (List UInt8) := do
  let length ← strlen block offset
  readBytes block offset length

theorem readBytes_ok {block : List UInt8} {offset : Int} {count : Nat}
    (lower : 0 ≤ offset) (upper : offset + count ≤ block.length) :
    readBytes block offset count = .ok ((block.drop offset.toNat).take count) := by
  unfold readBytes
  by_cases empty : count = 0
  · simp [empty]
  · rw [if_neg empty, if_pos ⟨lower, upper⟩]

theorem readBytes_fault (block : List UInt8) (offset : Int) (count : Nat)
    (positive : 0 < count) (outside : block.length < offset + count) :
    readBytes block offset count = .error .outOfBounds := by
  unfold readBytes
  rw [if_neg (by omega), if_neg (by omega)]

theorem writeBytes_ok {block bytes : List UInt8} {offset : Int}
    (lower : 0 ≤ offset) (upper : offset + bytes.length ≤ block.length) :
    writeBytes block offset bytes =
      .ok (block.take offset.toNat ++ bytes ++ block.drop (offset.toNat + bytes.length)) := by
  unfold writeBytes
  by_cases empty : bytes = []
  · simp [empty]
  · rw [if_neg empty, if_pos ⟨lower, upper⟩]

theorem writeBytes_fault (block : List UInt8) (offset : Int) (bytes : List UInt8)
    (positive : 0 < bytes.length) (outside : block.length < offset + bytes.length) :
    writeBytes block offset bytes = .error .outOfBounds := by
  unfold writeBytes
  rw [if_neg (by rintro rfl; simp at positive), if_neg (by omega)]

end Aio4c
