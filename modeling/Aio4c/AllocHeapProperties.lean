import Aio4c.AllocHeap
import Aio4c.Library.FiniteMap

/-! What the callers of the allocator may rely on: a store of byte strings of their own
length, fresh bytes zero, and probes that count what is there. -/

set_option autoImplicit false

namespace Aio4c

open FiniteMap SignedInt TransitionSystem

/-- What a caller sees: the bytes behind each pointer that it was given. -/
abbrev Objects := Nat → Option (List UInt8)

/-- A byte string cut or filled with zeros to another length. -/
def resized (bytes : List UInt8) (size : Nat) : List UInt8 :=
  bytes.take size ++ List.replicate (size - bytes.length) 0

/-- A byte string with some of its bytes written. -/
def written (bytes : List UInt8) (offset : Nat) (values : List UInt8) : List UInt8 :=
  bytes.take offset ++ values ++ bytes.drop (offset + values.length)

@[simp] theorem resized_length (bytes : List UInt8) (size : Nat) :
    (resized bytes size).length = size := by
  simp only [resized, List.length_append, List.length_take, List.length_replicate]
  omega

theorem written_length {bytes values : List UInt8} {offset : Nat}
    (inside : offset + values.length ≤ bytes.length) :
    (written bytes offset values).length = bytes.length := by
  simp only [written, List.length_append, List.length_take, List.length_drop]
  omega

/-- The effect of each call on the byte strings. -/
inductive ObjectsStep : Objects → HeapCall → Objects → Prop where
  | refused {objects : Objects} {size : Int} : ObjectsStep objects (.malloc size none) objects
  | allocated {objects : Objects} {size : Int} {pointer : Nat}
      (lower : 0 ≤ size) (upper : size < 2147483648) (fresh : objects pointer = none) :
      ObjectsStep objects (.malloc size (some pointer))
        (Function.update objects pointer (some (List.replicate size.toNat 0)))
  | reallocRefused {objects : Objects} {size : Int} :
      ObjectsStep objects (.realloc none size none) objects
  | reallocAllocated {objects : Objects} {size : Int} {pointer : Nat} {behind : List UInt8}
      (lower : 0 ≤ size) (upper : size < 2147483648) (fresh : objects pointer = none) :
      ObjectsStep objects (.realloc none size (some (pointer, behind)))
        (Function.update objects pointer (some (List.replicate size.toNat 0)))
  | kept {objects : Objects} {size : Int} {pointer : Nat} {bytes : List UInt8}
      (found : objects pointer = some bytes) :
      ObjectsStep objects (.realloc (some pointer) size none) objects
  | resized {objects : Objects} {size : Int} {pointer moved : Nat} {bytes behind : List UInt8}
      (lower : 0 ≤ size) (upper : size < 2147483648) (found : objects pointer = some bytes)
      (free : moved = pointer ∨ objects moved = none)
      (grown : behind.length = size.toNat - bytes.length) :
      ObjectsStep objects (.realloc (some pointer) size (some (moved, behind)))
        (Function.update (Function.update objects pointer none) moved
          (some (resized bytes size.toNat)))
  | freed {objects : Objects} {pointer : Nat} {bytes : List UInt8}
      (found : objects pointer = some bytes) :
      ObjectsStep objects (.free pointer) (Function.update objects pointer none)
  | stored {objects : Objects} {pointer offset : Nat} {bytes values : List UInt8}
      (found : objects pointer = some bytes) (inside : offset + values.length ≤ bytes.length) :
      ObjectsStep objects (.store pointer offset values)
        (Function.update objects pointer (some (written bytes offset values)))

/-- Each block is its object behind a header with the object's length. -/
structure MemoryHeap.Represents (heap : MemoryHeap) (objects : Objects) : Prop where
  blocks : ∀ pointer, heap.blocks pointer =
    (objects pointer).map fun bytes => intBytes bytes.length ++ bytes
  small : ∀ pointer bytes, objects pointer = some bytes → bytes.length < 2147483648

/-- A call that gives another length to an object there is. -/
def HeapCall.resizes : HeapCall → Bool
  | .realloc (some _) _ (some _) => true
  | _ => false

/-- A call that libc granted a block. -/
def HeapCall.allocates : HeapCall → Bool
  | .malloc _ granted => granted.isSome
  | .realloc _ _ granted => granted.isSome
  | _ => false

def HeapCall.frees : HeapCall → Bool
  | .free _ => true
  | _ => false

/-- The objects together have less bytes than a double counts one by one. -/
def Objects.Fit (objects : Objects) : Prop :=
  ∀ total, Total (fun bytes : List UInt8 => (bytes.length : Int)) objects total →
    total ≤ 9007199254740992

/-- The probes count the bytes of the objects there are, the calls that made or resized one
and the calls that freed one; the objects are those made and not freed. -/
structure MemoryHeap.Counts (heap : MemoryHeap) (objects : Objects) (calls : List HeapCall) :
    Prop where
  size : Total (fun bytes : List UInt8 => (bytes.length : Int)) objects heap.allocatedSize
  allocated : heap.allocateCount = calls.countP HeapCall.allocates
  freed : heap.freeCount = calls.countP HeapCall.frees
  count : Total (fun _ : List UInt8 => (1 : Int)) objects
    (heap.allocateCount - calls.countP HeapCall.resizes - heap.freeCount)

section Calls

variable {heap : MemoryHeap} (rounded : Int → Int) {pointer offset : Nat} {size : Int}
  {bytes values behind : List UInt8}

@[simp] theorem stopping_ok {α : Type} (value : α) : stopping (.ok value) = .ok value := rfl

theorem MemoryHeap.request_eq (lower : 0 ≤ size) (upper : size < 2147483648) :
    request size = headerSize + size.toNat := by
  rw [request, sizeT_of_nonneg lower (by omega)]
  unfold headerSize
  omega

theorem MemoryHeap.header_eq (bytes : List UInt8) (lower : 0 ≤ size) (upper : size < 2147483648) :
    header (intBytes size ++ bytes) = .ok size := by
  have read : readBytes (intBytes size ++ bytes) 0 headerSize = .ok (intBytes size) := by
    rw [readBytes_ok (by omega) (by simp), Int.toNat_zero, List.drop_zero,
      List.take_left' (intBytes_length size)]
  have value := intOfBytes_intBytes (by omega) upper
  simp only [header, read, stopping_ok, bind, Except.bind, value]
  rw [if_neg (by omega)]

/-- The header is written over the first bytes of a block that has them. -/
theorem writeHeader_eq {block : List UInt8} (value : Int) (long : headerSize ≤ block.length) :
    writeBytes block 0 (intBytes value) = .ok (intBytes value ++ block.drop headerSize) := by
  rw [writeBytes_ok (by omega) (by simpa using long)]
  simp

/-- A write behind the header writes the bytes of the caller. -/
theorem writeBehind_eq {front block : List UInt8} (inside : offset + values.length ≤ block.length) :
    writeBytes (front ++ block) (front.length + offset : Nat) values =
      .ok (front ++ written block offset values) := by
  rw [writeBytes_ok (by omega) (by simp; omega), Int.toNat_natCast, Nat.add_assoc,
    List.take_length_add_append, List.drop_length_add_append]
  simp [written]

theorem MemoryHeap.malloc_eq (lower : 0 ≤ size) (upper : size < 2147483648) :
    heap.malloc rounded size (some pointer) = .ok (some pointer, { heap with
      blocks := Function.update heap.blocks pointer
        (some (intBytes size ++ List.replicate size.toNat 0))
      allocatedSize := rounded (heap.allocatedSize + size)
      allocateCount := rounded (heap.allocateCount + 1) }) := by
  have wrote : writeBytes (List.replicate (request size) 0) 0 (intBytes size) =
      .ok (intBytes size ++ List.replicate size.toNat 0) := by
    rw [request_eq lower upper, writeHeader_eq size (by simp)]
    simp
  simp only [malloc, wrote, stopping_ok, bind, Except.bind]

/-- Behind the header a grown block is the old one and what libc put there, a shrunk one the
first bytes of the old one. -/
theorem MemoryHeap.realloc_eq (moved : Nat) (lower : 0 ≤ size) (upper : size < 2147483648)
    (small : bytes.length < 2147483648)
    (found : heap.blocks pointer = some (intBytes bytes.length ++ bytes))
    (grown : behind.length = size.toNat - bytes.length) :
    heap.realloc rounded (some pointer) size (some (moved, behind)) =
      .ok (some moved, { heap with
        blocks := Function.update (Function.update heap.blocks pointer none) moved
          (some (intBytes size ++ resized bytes size.toNat))
        allocatedSize := rounded (heap.allocatedSize + (size - bytes.length))
        allocateCount := rounded (heap.allocateCount + 1) }) := by
  have kept : (intBytes bytes.length ++ bytes).take (request size) ++ behind =
      intBytes bytes.length ++ (bytes.take size.toNat ++ behind) := by
    rw [request_eq lower upper, List.take_append, List.append_assoc]
    simp
  have headed : writeBytes (intBytes bytes.length ++ (bytes.take size.toNat ++ behind)) 0
      (intBytes size) = .ok (intBytes size ++ (bytes.take size.toNat ++ behind)) := by
    rw [writeHeader_eq size (by simp), List.drop_left' (intBytes_length _)]
  have known := header_eq bytes (Int.natCast_nonneg bytes.length) (by omega)
  simp only [realloc, block, found, known, kept, headed, stopping_ok, bind, Except.bind]
  by_cases grows : size > bytes.length
  · have zeroed : writeBytes (intBytes size ++ (bytes.take size.toNat ++ behind))
        (headerSize + bytes.length) (List.replicate (size - bytes.length).toNat 0) =
          .ok (intBytes size ++ resized bytes size.toNat) := by
      have wide : bytes.length ≤ size.toNat := by omega
      have fits : writeBytes (intBytes size ++ (bytes.take size.toNat ++ behind))
          ((intBytes size).length + bytes.length : Nat)
          (List.replicate (size - bytes.length).toNat 0) = _ :=
        writeBehind_eq (by simp; omega)
      have filled : written (bytes.take size.toNat ++ behind) bytes.length
          (List.replicate (size - bytes.length).toNat 0) = resized bytes size.toNat := by
        have shorter : behind.length ≤ (size - bytes.length).toNat := by omega
        rw [List.take_of_length_le wide, written, List.take_left, List.length_replicate,
          List.drop_length_add_append, List.drop_eq_nil_of_le shorter, List.append_nil, resized,
          List.take_of_length_le wide]
        congr 2
        omega
      rw [filled] at fits
      exact_mod_cast fits
    rw [if_pos grows, zeroed]
    rfl
  · have short : size.toNat ≤ bytes.length := by omega
    have nothing : behind = [] := List.length_eq_zero_iff.mp (by omega)
    have cut : resized bytes size.toNat = bytes.take size.toNat := by
      simp [resized, Nat.sub_eq_zero_of_le short]
    rw [if_neg grows, nothing, cut, List.append_nil]

/-- Where libc has no room the object stays. -/
theorem MemoryHeap.realloc_refused (small : bytes.length < 2147483648)
    (found : heap.blocks pointer = some (intBytes bytes.length ++ bytes)) :
    heap.realloc rounded (some pointer) size none = .ok (none, heap) := by
  have known := header_eq bytes (Int.natCast_nonneg bytes.length) (by omega)
  simp only [realloc, block, found, known, bind, Except.bind]

theorem MemoryHeap.free_eq (small : bytes.length < 2147483648)
    (found : heap.blocks pointer = some (intBytes bytes.length ++ bytes)) :
    heap.free rounded pointer = .ok { heap with
      blocks := Function.update heap.blocks pointer none
      allocatedSize := rounded (heap.allocatedSize - bytes.length)
      freeCount := rounded (heap.freeCount + 1) } := by
  have known := header_eq bytes (Int.natCast_nonneg bytes.length) (by omega)
  have marked : writeBytes (intBytes bytes.length ++ bytes) 0 (intBytes (-1)) =
      .ok (intBytes (-1) ++ (intBytes bytes.length ++ bytes).drop headerSize) :=
    writeHeader_eq (-1) (by simp)
  simp only [free, block, found, known, marked, stopping_ok, bind, Except.bind]

theorem MemoryHeap.store_eq (found : heap.blocks pointer = some (intBytes bytes.length ++ bytes))
    (inside : offset + values.length ≤ bytes.length) :
    heap.store pointer offset values = .ok { heap with
      blocks := Function.update heap.blocks pointer
        (some (intBytes bytes.length ++ written bytes offset values)) } := by
  have wrote : writeBytes (intBytes bytes.length ++ bytes) (headerSize + offset : Nat) values =
      .ok (intBytes bytes.length ++ written bytes offset values) :=
    writeBehind_eq inside
  simp only [store, block, found, wrote, stopping_ok, bind, Except.bind]

end Calls

section Steps

variable {heap after : MemoryHeap} (rounded : Int → Int) {objects objects' : Objects}
  {call : HeapCall} {pointer : Nat} {bytes : List UInt8} {steps : Nat} {resizes : Int}

theorem newMemoryHeap_represents : newMemoryHeap.Represents fun _ => none where
  blocks _ := rfl
  small _ _ found := by cases found

theorem MemoryHeap.Represents.found (represents : heap.Represents objects)
    (found : objects pointer = some bytes) :
    heap.blocks pointer = some (intBytes bytes.length ++ bytes) := by
  rw [represents.blocks, found]
  rfl

theorem MemoryHeap.Represents.put (represents : heap.Represents objects)
    (small : bytes.length < 2147483648)
    (changed : after.blocks =
      Function.update heap.blocks pointer (some (intBytes bytes.length ++ bytes))) :
    after.Represents (Function.update objects pointer (some bytes)) where
  blocks other := by
    rw [changed]
    by_cases same : other = pointer
    · subst same
      simp
    · rw [Function.update_of_ne same, Function.update_of_ne same, represents.blocks]
  small other stored found := by
    by_cases same : other = pointer
    · subst same
      rw [Function.update_self] at found
      cases found
      exact small
    · rw [Function.update_of_ne same] at found
      exact represents.small other stored found

theorem MemoryHeap.Represents.drop (represents : heap.Represents objects)
    (changed : after.blocks = Function.update heap.blocks pointer none) :
    after.Represents (Function.update objects pointer none) where
  blocks other := by
    rw [changed]
    by_cases same : other = pointer
    · subst same
      simp
    · rw [Function.update_of_ne same, Function.update_of_ne same, represents.blocks]
  small other stored found := by
    by_cases same : other = pointer
    · subst same
      simp at found
    · rw [Function.update_of_ne same] at found
      exact represents.small other stored found

/-- A new object of zeros. -/
theorem MemoryHeap.Represents.allocates {size : Int} (represents : heap.Represents objects)
    (lower : 0 ≤ size) (upper : size < 2147483648) :
    ∃ after, heap.malloc rounded size (some pointer) = .ok (some pointer, after) ∧
      after.Represents (Function.update objects pointer (some (List.replicate size.toNat 0))) := by
  refine ⟨_, MemoryHeap.malloc_eq rounded lower upper, represents.put ?_ ?_⟩
  · rw [List.length_replicate]
    omega
  · rw [List.length_replicate, Int.toNat_of_nonneg lower]

/-- A call that the caller and libc may make comes back, with the objects it should leave. -/
theorem MemoryHeap.Represents.step (represents : heap.Represents objects)
    (taken : ObjectsStep objects call objects') :
    ∃ after, heap.call rounded call = .ok after ∧ after.Represents objects' := by
  cases taken with
  | refused => exact ⟨heap, rfl, represents⟩
  | reallocRefused => exact ⟨heap, rfl, represents⟩
  | allocated lower upper fresh =>
      obtain ⟨after, granted, holds⟩ := represents.allocates rounded lower upper
      exact ⟨after, by simp [MemoryHeap.call, granted, Except.map], holds⟩
  | reallocAllocated lower upper fresh =>
      obtain ⟨after, granted, holds⟩ := represents.allocates rounded lower upper
      exact ⟨after, by simp [MemoryHeap.call, MemoryHeap.realloc, granted, Except.map], holds⟩
  | kept found =>
      refine ⟨heap, ?_, represents⟩
      rw [MemoryHeap.call, MemoryHeap.realloc_refused rounded (represents.small _ _ found)
        (represents.found found)]
      rfl
  | @resized _ pointer moved _ _ lower upper found free grown =>
      have granted := MemoryHeap.realloc_eq rounded moved lower upper
        (represents.small _ _ found) (represents.found found) grown
      refine ⟨_, by rw [MemoryHeap.call, granted]; rfl, ?_⟩
      have dropped : MemoryHeap.Represents
          { heap with blocks := Function.update heap.blocks pointer none }
          (Function.update objects pointer none) := represents.drop rfl
      refine dropped.put ?_ ?_
      · rw [resized_length]
        omega
      · rw [resized_length, Int.toNat_of_nonneg lower]
  | freed found =>
      have freed := MemoryHeap.free_eq rounded (represents.small _ _ found)
        (represents.found found)
      exact ⟨_, freed, represents.drop rfl⟩
  | stored found inside =>
      have stored := MemoryHeap.store_eq (represents.found found) inside
      refine ⟨_, stored, represents.put ?_ ?_⟩
      · rw [written_length inside]
        exact represents.small _ _ found
      · rw [written_length inside]

variable {calls : List HeapCall}

theorem newMemoryHeap_counts : newMemoryHeap.Counts (fun _ => none) [] where
  size := Total.empty
  allocated := rfl
  freed := rfl
  count := Total.empty

/-- Sums that a double holds as they are. -/
def Exact (rounded : Int → Int) : Prop :=
  ∀ sum, 0 ≤ sum → sum ≤ 9007199254740992 → rounded sum = sum

theorem Objects.Fit.rounded_eq {rounded : Int → Int} {total : Int} (fits : objects.Fit)
    (exact : Exact rounded)
    (sum : Total (fun bytes : List UInt8 => (bytes.length : Int)) objects total) :
    rounded total = total :=
  exact total (sum.nonneg fun _ => Int.natCast_nonneg _) (fits total sum)

/-- A call that is counted by no probe. -/
theorem MemoryHeap.Counts.skip (counts : heap.Counts objects calls) (call : HeapCall)
    (refused : call.allocates = false) (kept : call.frees = false)
    (plain : call.resizes = false) : heap.Counts objects (calls ++ [call]) where
  size := counts.size
  allocated := by simpa [refused] using counts.allocated
  freed := by simpa [kept] using counts.freed
  count := by simpa [plain] using counts.count

variable {rounded : Int → Int}

/-- The count of a probe that goes up by one. -/
theorem Exact.count (exact : Exact rounded) (few : calls.length < 9007199254740992)
    (counted : HeapCall → Bool) :
    rounded ((calls.countP counted : Int) + 1) = calls.countP counted + 1 := by
  have bound : calls.countP counted ≤ calls.length := List.countP_le_length
  exact exact _ (by omega) (by omega)

/-- A call that allocates or resizes an object, and the probes behind it. -/
theorem MemoryHeap.Counts.allocates {difference : Int} {blocks : Nat → Option (List UInt8)}
    (counts : heap.Counts objects calls) (exact : Exact rounded)
    (few : calls.length < 9007199254740992) (fits : objects'.Fit)
    (granted : call.allocates = true) (kept : call.frees = false)
    (size : Total (fun bytes : List UInt8 => (bytes.length : Int)) objects'
      (heap.allocatedSize + difference))
    (count : Total (fun _ : List UInt8 => (1 : Int)) objects'
      (heap.allocateCount + 1 - (calls ++ [call]).countP HeapCall.resizes - heap.freeCount)) :
    MemoryHeap.Counts { heap with
      blocks
      allocatedSize := rounded (heap.allocatedSize + difference)
      allocateCount := rounded (heap.allocateCount + 1) } objects' (calls ++ [call]) := by
  have counted : rounded (heap.allocateCount + 1) = heap.allocateCount + 1 := by
    rw [counts.allocated]
    exact exact.count few HeapCall.allocates
  rw [fits.rounded_eq exact size, counted]
  constructor
  · exact size
  · simp [counts.allocated, granted]
  · simpa [kept] using counts.freed
  · exact count

theorem MemoryHeap.Counts.makes {size : Int} {blocks : Nat → Option (List UInt8)}
    (counts : heap.Counts objects calls) (exact : Exact rounded)
    (few : calls.length < 9007199254740992) (lower : 0 ≤ size) (fresh : objects pointer = none)
    (fits : Objects.Fit
      (Function.update objects pointer (some (List.replicate size.toNat (0 : UInt8)))))
    (granted : call.allocates = true) (kept : call.frees = false)
    (plain : call.resizes = false) :
    MemoryHeap.Counts { heap with
      blocks
      allocatedSize := rounded (heap.allocatedSize + size)
      allocateCount := rounded (heap.allocateCount + 1) }
      (Function.update objects pointer (some (List.replicate size.toNat 0)))
      (calls ++ [call]) := by
  apply counts.allocates exact few fits granted kept
  · have sum := counts.size.insert fresh (List.replicate size.toNat 0)
    simpa only [List.length_replicate, Int.toNat_of_nonneg lower] using sum
  · have sum := counts.count.insert fresh (List.replicate size.toNat 0)
    convert sum using 1
    simp [plain]
    omega

theorem MemoryHeap.Counts.step (counts : heap.Counts objects calls) (exact : Exact rounded)
    (few : calls.length < 9007199254740992) (represents : heap.Represents objects)
    (taken : ObjectsStep objects call objects') (fits : objects'.Fit)
    (made : heap.call rounded call = .ok after) : after.Counts objects' (calls ++ [call]) := by
  cases taken with
  | refused =>
      cases made
      exact counts.skip _ rfl rfl rfl
  | reallocRefused =>
      cases made
      exact counts.skip _ rfl rfl rfl
  | allocated lower upper fresh =>
      rw [MemoryHeap.call, MemoryHeap.malloc_eq rounded lower upper] at made
      cases made
      exact counts.makes exact few lower fresh fits rfl rfl rfl
  | reallocAllocated lower upper fresh =>
      rw [MemoryHeap.call, MemoryHeap.realloc, Option.map_some,
        MemoryHeap.malloc_eq rounded lower upper] at made
      cases made
      exact counts.makes exact few lower fresh fits rfl rfl rfl
  | kept found =>
      rw [MemoryHeap.call, MemoryHeap.realloc_refused rounded (represents.small _ _ found)
        (represents.found found)] at made
      cases made
      exact counts.skip _ rfl rfl rfl
  | @resized size pointer moved bytes behind lower upper found free grown =>
      rw [MemoryHeap.call, MemoryHeap.realloc_eq rounded moved lower upper
        (represents.small _ _ found) (represents.found found) grown] at made
      cases made
      apply counts.allocates exact few fits rfl rfl
      · have sum := counts.size.move found free (resized bytes size.toNat)
        simp only [resized_length, Int.toNat_of_nonneg lower] at sum
        convert sum using 1
        omega
      · have sum := counts.count.move found free (resized bytes size.toNat)
        convert sum using 1
        simp [HeapCall.resizes]
  | freed found =>
      rw [MemoryHeap.call, MemoryHeap.free_eq rounded (represents.small _ _ found)
        (represents.found found)] at made
      cases made
      have counted : rounded (heap.freeCount + 1) = heap.freeCount + 1 := by
        rw [counts.freed]
        exact exact.count few HeapCall.frees
      have sum := counts.size.erase found
      rw [fits.rounded_eq exact sum, counted]
      constructor
      · exact sum
      · simpa [HeapCall.allocates] using counts.allocated
      · simp [counts.freed, HeapCall.frees]
      · have sum := counts.count.erase found
        convert sum using 1
        simp [HeapCall.resizes]
        omega
  | @stored pointer offset bytes values found inside =>
      rw [MemoryHeap.call, MemoryHeap.store_eq (represents.found found) inside] at made
      cases made
      have plain := counts.skip (.store pointer offset values) rfl rfl rfl
      constructor
      · exact plain.size.replace found (by rw [written_length inside])
      · exact plain.allocated
      · exact plain.freed
      · exact plain.count.replace found rfl

end Steps

section Runs

variable {heap : MemoryHeap} {rounded : Int → Int} {objects objects' : Objects}
  {made calls : List HeapCall}

/-- The steps that leave no more bytes than a probe counts. -/
def FittingStep (before : Objects) (call : HeapCall) (after : Objects) : Prop :=
  ObjectsStep before call after ∧ after.Fit

theorem MemoryHeap.calls_cons {after : MemoryHeap} {call : HeapCall}
    (taken : heap.call rounded call = .ok after) :
    heap.calls rounded (call :: calls) = after.calls rounded calls := by
  simp only [MemoryHeap.calls, taken, bind, Except.bind]

theorem MemoryHeap.Represents.run (run : Run ObjectsStep objects calls objects')
    (represents : heap.Represents objects) :
    ∃ after, heap.calls rounded calls = .ok after ∧ after.Represents objects' := by
  induction run generalizing heap with
  | nil => exact ⟨heap, rfl, represents⟩
  | cons taken _ ih =>
      obtain ⟨middle, called, holds⟩ := represents.step rounded taken
      obtain ⟨after, goes, holds⟩ := ih holds
      exact ⟨after, (MemoryHeap.calls_cons called).trans goes, holds⟩

theorem MemoryHeap.Counts.run (run : Run FittingStep objects calls objects')
    (represents : heap.Represents objects) (counts : heap.Counts objects made)
    (exact : Exact rounded) (few : made.length + calls.length ≤ 9007199254740992) :
    ∃ after, heap.calls rounded calls = .ok after ∧ after.Counts objects' (made ++ calls) := by
  induction run generalizing heap made with
  | nil => exact ⟨heap, rfl, by simpa using counts⟩
  | @cons _ middle _ call calls taken _ ih =>
      simp only [List.length_cons] at few
      obtain ⟨after, called, holds⟩ := represents.step rounded taken.1
      have counted := counts.step exact (by omega) represents taken.1 taken.2 called
      obtain ⟨last, goes, counted⟩ :=
        ih holds counted (by simp only [List.length_append, List.length_singleton]; omega)
      refine ⟨last, (MemoryHeap.calls_cons called).trans goes, ?_⟩
      simpa using counted

/-- No sequence of calls that hands only live pointers in stops the program, whatever libc
answers: it leaves each object with the bytes that its callers know, and zeros where a fresh
or grown one was not written. -/
theorem newMemoryHeap_represents_objects
    (run : Run ObjectsStep (fun _ => none) calls objects) :
    ∃ heap, newMemoryHeap.calls rounded calls = .ok heap ∧ heap.Represents objects :=
  newMemoryHeap_represents.run run

/-- A block that is written and grows, away from its place, and one that is freed. -/
def growingCalls : List HeapCall :=
  [.malloc 2 (some 0), .store 0 0 [7, 8], .realloc (some 0) 4 (some (1, [3, 5])),
    .malloc 1 (some 0), .free 0]

/-- The two written bytes. -/
def storedObjects : Objects :=
  Function.update (Function.update (fun _ => none) 0 (some [0, 0])) 0 (some [7, 8])

/-- The two written bytes and two zeros. -/
def movedObjects : Objects :=
  Function.update (Function.update storedObjects 0 none) 1 (some [7, 8, 0, 0])

def grownObjects : Objects :=
  Function.update (Function.update movedObjects 0 (some [0])) 0 none

theorem newMemoryHeap_represents_objects_grown :
    ∃ heap, newMemoryHeap.calls id growingCalls = .ok heap ∧ heap.Represents grownObjects :=
  newMemoryHeap_represents_objects
    (.cons (.allocated (by decide) (by decide) rfl)
      (.cons (.stored rfl (by decide))
        (.cons (.resized (by decide) (by decide) rfl (.inr rfl) rfl)
          (.cons (.allocated (by decide) (by decide) rfl) (.cons (.freed rfl) (.nil _))))))

/-- As long as the sums fit a double, the probes say how many bytes are allocated, and how
many calls allocated and freed. -/
theorem newMemoryHeap_counts_objects (exact : Exact rounded)
    (few : calls.length ≤ 9007199254740992)
    (run : Run FittingStep (fun _ => none) calls objects) :
    ∃ heap, newMemoryHeap.calls rounded calls = .ok heap ∧ heap.Counts objects calls :=
  newMemoryHeap_counts.run run newMemoryHeap_represents exact (by simpa using few)

theorem Objects.Fit.of_total {total : Int}
    (sum : Total (fun bytes : List UInt8 => (bytes.length : Int)) objects total)
    (small : total ≤ 9007199254740992) : objects.Fit := by
  intro other same
  rwa [same.unique sum]

theorem newMemoryHeap_counts_objects_grown :
    ∃ heap, newMemoryHeap.calls id growingCalls = .ok heap ∧
      heap.Counts grownObjects growingCalls := by
  have made : Total (fun bytes : List UInt8 => (bytes.length : Int))
      (Function.update (fun _ : Nat => none) 0 (some [0, 0])) 2 := Total.empty.insert rfl [0, 0]
  have stored : Total (fun bytes : List UInt8 => (bytes.length : Int))
      storedObjects 2 := made.replace rfl rfl
  have moved : Total (fun bytes : List UInt8 => (bytes.length : Int)) movedObjects 4 :=
    stored.move (show storedObjects 0 = some [7, 8] from rfl)
      (.inr (show storedObjects 1 = none from rfl)) [7, 8, 0, 0]
  have again : Total (fun bytes : List UInt8 => (bytes.length : Int))
      (Function.update movedObjects 0 (some [0])) 5 :=
    moved.insert (show movedObjects 0 = none from rfl) [0]
  have freed : Total (fun bytes : List UInt8 => (bytes.length : Int)) grownObjects 4 :=
    again.erase (show Function.update movedObjects 0 (some [0]) 0 = some [0] from rfl)
  exact newMemoryHeap_counts_objects (fun _ _ _ => rfl) (by decide)
    (.cons ⟨.allocated (by decide) (by decide) rfl, .of_total made (by decide)⟩
      (.cons ⟨.stored rfl (by decide), .of_total stored (by decide)⟩
        (.cons ⟨.resized (by decide) (by decide) rfl (.inr rfl) rfl, .of_total moved (by decide)⟩
          (.cons ⟨.allocated (by decide) (by decide) rfl, .of_total again (by decide)⟩
            (.cons ⟨.freed rfl, .of_total freed (by decide)⟩ (.nil _))))))

end Runs

end Aio4c
