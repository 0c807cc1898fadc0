import Aio4c.Alloc

/-! Byte buffers: a block of `size + 2` bytes with a position and a limit.
Every function is translated from the source with its own checks; an access
outside the block is a fault of the memory functions it calls. -/

set_option autoImplicit false

namespace Aio4c

open SignedInt

structure Buffer where
  size : Int
  data : List UInt8
  position : Int
  limit : Int
  deriving DecidableEq, Repr

/-- `sizeof(Buffer)` on a 64-bit target. -/
def bufferStructSize : Int := 32

/-- `NewBuffer`: `none` is NULL. The two requests may be granted independently. -/
def newBuffer (mallocBuffer mallocData : Nat → Bool) (size : Int) : Access (Option Buffer) := do
  match ← aio4cMalloc mallocBuffer bufferStructSize with
  | none => pure none
  | some _ =>
    match ← aio4cMalloc mallocData (int32 (size + 2)) with
    | none => pure none
    | some data => pure (some { size, data, position := 0, limit := size })

def bufferFlip (buffer : Buffer) : Buffer :=
  { buffer with limit := buffer.position, position := 0 }

/-- `BufferPosition`: the flag is false where the source returns NULL. -/
def bufferPosition (buffer : Buffer) (position : Int) : Bool × Buffer :=
  if position > buffer.limit then (false, buffer)
  else (true, { buffer with position })

/-- `BufferLimit`: the flag is false where the source returns NULL. -/
def bufferLimit (buffer : Buffer) (limit : Int) : Bool × Buffer :=
  if limit > buffer.size then (false, buffer)
  else (true, { buffer with limit })

def bufferReset (buffer : Buffer) : Access Buffer := do
  let data ← writeBytes buffer.data 0 (List.replicate (sizeT buffer.size) 0)
  pure { buffer with data, position := 0, limit := buffer.size }

def bufferRemaining (buffer : Buffer) : Int :=
  int32 (buffer.limit - buffer.position)

def bufferHasRemaining (buffer : Buffer) : Bool :=
  decide (buffer.position < buffer.limit)

def bufferCopy (dst src : Buffer) : Access Buffer := do
  let dst ← bufferReset dst
  let bytes ← readBytes src.data src.position (sizeT (bufferRemaining src))
  let data ← writeBytes dst.data 0 bytes
  pure (bufferLimit { dst with data } (bufferRemaining src)).2

/-- `BufferGet`: the bytes copied out, or `none` where the source returns false. -/
def bufferGet (buffer : Buffer) (size : Int) : Access (Option (List UInt8) × Buffer) :=
  if int32 (buffer.position + size) > buffer.limit then .ok (none, buffer)
  else do
    let out ← readBytes buffer.data buffer.position (sizeT size)
    pure (some out, { buffer with position := int32 (buffer.position + size) })

/-- `BufferGetString`: the text the returned pointer designates afterwards. A
text without terminator inside the limit is cut there by two NUL bytes. -/
def bufferGetString (buffer : Buffer) : Access (List UInt8 × Buffer) := do
  let scanned ← strlen buffer.data buffer.position
  let len := int32 (scanned + 1)
  if len > bufferRemaining buffer then
    let data ← writeBytes buffer.data buffer.limit [0]
    let data ← writeBytes data (buffer.limit + 1) [0]
    let out ← cString data buffer.position
    pure (out, { buffer with
      data, position := int32 (buffer.position + bufferRemaining buffer) })
  else
    let out ← cString buffer.data buffer.position
    pure (out, { buffer with position := int32 (buffer.position + len) })

/-- `BufferPut`: copies `size` bytes of the caller's memory `input`. -/
def bufferPut (buffer : Buffer) (input : List UInt8) (size : Int) : Access (Bool × Buffer) :=
  if int32 (buffer.position + size) > buffer.limit then .ok (false, buffer)
  else do
    let bytes ← readBytes input 0 (sizeT size)
    let data ← writeBytes buffer.data buffer.position bytes
    pure (true, { buffer with data, position := int32 (buffer.position + size) })

/-- `BufferPutString`: the length test is a `memchr` over the remaining space. -/
def bufferPutString (buffer : Buffer) (input : List UInt8) : Access (Bool × Buffer) := do
  if ← memchr input (sizeT (bufferRemaining buffer)) then
    let inLen := (← strlen input 0) + 1
    let bytes ← readBytes input 0 inLen
    let data ← writeBytes buffer.data buffer.position bytes
    pure (true, { buffer with data, position := int32 (buffer.position + inLen) })
  else pure (false, buffer)

/-- A text that a C caller can hand over: no NUL before its terminator. -/
structure CString where
  bytes : List UInt8
  noNul : 0 ∉ bytes

/-- The caller's memory that holds the text. -/
def CString.terminated (text : CString) : List UInt8 := text.bytes ++ [0]

end Aio4c
