import Aio4c.Alloc
import Aio4c.Library.TransitionSystem
import Mathlib.Logic.Function.Basic

/-! The heap behind the allocator. A block of libc is four bytes of header, the length the
caller asked for, and the bytes the caller uses; a pointer of the caller stands for the block
in front of whose bytes its header is. What libc answers is a parameter of each call. -/

set_option autoImplicit false

namespace Aio4c

open SignedInt

/-- How a call of the allocator ends the program. -/
inductive AllocStop where
  | fault
  | abort
  deriving DecidableEq, Repr

/-- The blocks of libc, and the three probes of the allocator. -/
structure MemoryHeap where
  blocks : Nat → Option (List UInt8)
  allocatedSize : Int
  allocateCount : Int
  freeCount : Int

def newMemoryHeap : MemoryHeap :=
  { blocks := fun _ => none, allocatedSize := 0, allocateCount := 0, freeCount := 0 }

/-- The bytes of an `int`, the lowest first. -/
def intBytes (value : Int) : List UInt8 :=
  let bits := (value % 4294967296).toNat
  [UInt8.ofNat bits, UInt8.ofNat (bits / 256), UInt8.ofNat (bits / 65536),
    UInt8.ofNat (bits / 16777216)]

def intOfBytes (bytes : List UInt8) : Int :=
  int32 (bytes.foldr (fun byte value => byte.toNat + 256 * value) 0 : Nat)

@[simp] theorem intBytes_length (value : Int) : (intBytes value).length = headerSize := rfl

theorem intOfBytes_intBytes {value : Int} (lower : -2147483648 ≤ value)
    (upper : value < 2147483648) : intOfBytes (intBytes value) = value := by
  simp only [intOfBytes, intBytes, List.foldr_cons, List.foldr_nil, UInt8.toNat_ofNat',
    int32]
  omega

/-- What an access that is out of its block does to the program. -/
def stopping {α : Type} (access : Access α) : Except AllocStop α :=
  access.mapError fun _ => .fault

namespace MemoryHeap

/-- `size + sizeof(int)`, the length that is asked of libc. -/
def request (size : Int) : Nat := (sizeT size + headerSize) % 18446744073709551616

def block (heap : MemoryHeap) (pointer : Nat) : Except AllocStop (List UInt8) :=
  match heap.blocks pointer with
  | some bytes => .ok bytes
  | none => .error .fault

/-- The length in front of a block; the mark of a freed one ends the program. -/
def header (bytes : List UInt8) : Except AllocStop Int := do
  let size := intOfBytes (← stopping (readBytes bytes 0 headerSize))
  if size = -1 then .error .abort else .ok size

variable (rounded : Int → Int)

/-- `aio4c_malloc`. A granted block is named by its pointer. -/
def malloc (heap : MemoryHeap) (size : Int) (granted : Option Nat) :
    Except AllocStop (Option Nat × MemoryHeap) :=
  match granted with
  | none => .ok (none, heap)
  | some pointer => do
      let bytes ← stopping
        (writeBytes (List.replicate (request size) 0) 0 (intBytes size))
      .ok (some pointer, { heap with
        blocks := Function.update heap.blocks pointer (some bytes)
        allocatedSize := rounded (heap.allocatedSize + size)
        allocateCount := rounded (heap.allocateCount + 1) })

/-- `aio4c_realloc`. A granted block may be another one; it keeps the bytes that the old one
had, and libc says what stands behind them. -/
def realloc (heap : MemoryHeap) (pointer : Option Nat) (size : Int)
    (granted : Option (Nat × List UInt8)) : Except AllocStop (Option Nat × MemoryHeap) :=
  match pointer with
  | none => heap.malloc rounded size (granted.map Prod.fst)
  | some pointer => do
      let bytes ← heap.block pointer
      let prevSize ← header bytes
      match granted with
      | none => .ok (none, heap)
      | some (moved, behind) => do
          let headed ← stopping
            (writeBytes (bytes.take (request size) ++ behind) 0 (intBytes size))
          let zeroed ← if size > prevSize then
              stopping (writeBytes headed (headerSize + prevSize)
                (List.replicate (size - prevSize).toNat 0))
            else .ok headed
          .ok (some moved, { heap with
            blocks := Function.update (Function.update heap.blocks pointer none) moved
              (some zeroed)
            allocatedSize := rounded (heap.allocatedSize + (size - prevSize))
            allocateCount := rounded (heap.allocateCount + 1) })

/-- `aio4c_free`. The mark of a freed block is its last write. -/
def free (heap : MemoryHeap) (pointer : Nat) : Except AllocStop MemoryHeap := do
  let bytes ← heap.block pointer
  let size ← header bytes
  let _ ← stopping (writeBytes bytes 0 (intBytes (-1)))
  .ok { heap with
    blocks := Function.update heap.blocks pointer none
    allocatedSize := rounded (heap.allocatedSize - size)
    freeCount := rounded (heap.freeCount + 1) }

/-- The caller writes bytes at an offset from its pointer. -/
def store (heap : MemoryHeap) (pointer offset : Nat) (written : List UInt8) :
    Except AllocStop MemoryHeap := do
  let bytes ← heap.block pointer
  let changed ← stopping (writeBytes bytes (headerSize + offset : Nat) written)
  .ok { heap with blocks := Function.update heap.blocks pointer (some changed) }

end MemoryHeap

inductive HeapCall where
  | malloc (size : Int) (granted : Option Nat)
  | realloc (pointer : Option Nat) (size : Int) (granted : Option (Nat × List UInt8))
  | free (pointer : Nat)
  | store (pointer offset : Nat) (written : List UInt8)

/-- One call. `rounded` is the sum that the double of a probe can hold. -/
def MemoryHeap.call (rounded : Int → Int) (heap : MemoryHeap) :
    HeapCall → Except AllocStop MemoryHeap
  | .malloc size granted => (heap.malloc rounded size granted).map Prod.snd
  | .realloc pointer size granted => (heap.realloc rounded pointer size granted).map Prod.snd
  | .free pointer => heap.free rounded pointer
  | .store pointer offset written => heap.store pointer offset written

def MemoryHeap.calls (rounded : Int → Int) (heap : MemoryHeap) :
    List HeapCall → Except AllocStop MemoryHeap
  | [] => .ok heap
  | call :: rest => do
      let after ← heap.call rounded call
      after.calls rounded rest

end Aio4c
