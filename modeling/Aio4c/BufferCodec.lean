import Aio4c.BufferProperties

/-! Writing a list of values and reading it back. Two encoders with different
length tests meet two decoders; the invariant of both loops is that the bytes
between two positions are the concatenated encodings of the values passed. -/

set_option autoImplicit false

namespace Aio4c

open SignedInt

/-- What a caller writes: a block with its own length, or a terminated text. -/
inductive Value where
  | block (bytes : List UInt8)
  | text (text : CString)

/-- The bytes a value takes in the buffer. -/
def Value.encoded : Value → List UInt8
  | .block bytes => bytes
  | .text string => string.terminated

/-- The bytes a reader gets back. -/
def Value.bytes : Value → List UInt8
  | .block bytes => bytes
  | .text string => string.bytes

def putValue (buffer : Buffer) : Value → Access (Bool × Buffer)
  | .block bytes => bufferPut buffer bytes bytes.length
  | .text text => bufferPutString buffer text.terminated

/-- The matching read of a value; `none` where the source returns false. -/
def getValue (buffer : Buffer) : Value → Access (Option (List UInt8) × Buffer)
  | .block bytes => bufferGet buffer bytes.length
  | .text _ => do
      let (out, after) ← bufferGetString buffer
      pure (some out, after)

/-- Writes values until one is refused: the values written and the buffer left. -/
def putValues (buffer : Buffer) : List Value → Access (List Value × Buffer)
  | [] => pure ([], buffer)
  | value :: values => do
      let (accepted, after) ← putValue buffer value
      if accepted then
        let (written, last) ← putValues after values
        pure (value :: written, last)
      else pure ([], after)

/-- Reads the matching values until one is refused. -/
def getValues (buffer : Buffer) : List Value → Access (List (List UInt8) × Buffer)
  | [] => pure ([], buffer)
  | value :: values => do
      match ← getValue buffer value with
      | (some out, after) =>
          let (read, last) ← getValues after values
          pure (out :: read, last)
      | (none, after) => pure ([], after)

/-- The values that fit one after the other between a position and the limit. -/
def fitting (limit : Int) (position : Int) : List Value → List Value
  | [] => []
  | value :: values =>
      if position + value.encoded.length ≤ limit then
        value :: fitting limit (position + value.encoded.length) values
      else []

/-- Every block that is tried ends below the largest `int`. -/
def Representable (limit : Int) (position : Int) : List Value → Prop
  | [] => True
  | value :: values =>
      (∀ bytes, value = .block bytes → position + bytes.length < 2147483648) ∧
        (position + value.encoded.length ≤ limit →
          Representable limit (position + value.encoded.length) values)

def encodedLength (values : List Value) : Int :=
  (values.flatMap Value.encoded).length

/-- Reading the written values back returns them all, ends at the limit, and
one more read is refused without an effect. -/
def ReadsBack (written : List Value) (buffer : Buffer) (size : Int) : Prop :=
  ∃ last, getValues (bufferFlip buffer) written = .ok (written.map Value.bytes, last) ∧
    last.position = last.limit ∧ bufferGet last size = .ok (none, last)

/-- The put of a value behind those of `written` is refused, and leaves the buffer as
the puts of `written` alone leave it. -/
def Refuses (buffer : Buffer) (written : List Value) (value : Value) (after : Buffer) : Prop :=
  ∃ before, putValues buffer written = .ok (written, before) ∧
    putValue before value = .ok (false, before) ∧ after = before

/-- Writing stops at the first value that does not fit, whose put is refused
without an effect; what was written from position 0 reads back. -/
def RoundTrips (buffer : Buffer) (values : List Value) (size : Int) : Prop :=
  ∃ written after, putValues buffer values = .ok (written, after) ∧
    written = fitting buffer.limit buffer.position values ∧
    (∀ value rest, values = written ++ value :: rest → Refuses buffer written value after) ∧
    (buffer.position = 0 → ReadsBack written after size)

/-! ## One value -/

theorem putValue_fits {buffer : Buffer} (block : buffer.Block) (ordered : buffer.Ordered)
    {value : Value} (fits : buffer.position + value.encoded.length ≤ buffer.limit) :
    putValue buffer value = .ok
      (true, { buffer with
        data := buffer.data.take buffer.position.toNat ++ value.encoded ++
          buffer.data.drop (buffer.position.toNat + value.encoded.length)
        position := buffer.position + value.encoded.length }) := by
  cases value with
  | block bytes => exact bufferPut_ok block ordered fits
  | text text => exact bufferPutString_ok block ordered text fits

theorem putValue_refused {buffer : Buffer} (block : buffer.Block) (ordered : buffer.Ordered)
    {value : Value}
    (representable : ∀ bytes, value = .block bytes → buffer.position + bytes.length < 2147483648)
    (short : buffer.limit < buffer.position + value.encoded.length) :
    putValue buffer value = .ok (false, buffer) := by
  cases value with
  | block bytes => exact bufferPut_overflow ordered (representable bytes rfl) short
  | text text => exact bufferPutString_overflow block ordered text short

theorem strlen_of_terminated {block rest : List UInt8} {offset : Int} {text : CString}
    (lower : 0 ≤ offset) (content : block.drop offset.toNat = text.terminated ++ rest) :
    strlen block offset = .ok text.bytes.length := by
  have member : (0 : UInt8) ∈ text.terminated := by simp [CString.terminated]
  rw [strlen, if_pos ⟨lower, by simp [content, member]⟩, content,
    List.idxOf_append_of_mem member, text.terminated_idxOf]

theorem cString_of_terminated {block rest : List UInt8} {offset : Int} {text : CString}
    (lower : 0 ≤ offset) (content : block.drop offset.toNat = text.terminated ++ rest) :
    cString block offset = .ok text.bytes := by
  have total := congrArg List.length content
  simp only [List.length_drop, List.length_append, text.terminated_length] at total
  simp only [cString, strlen_of_terminated lower content, bind, Except.bind]
  rw [readBytes_ok lower (by omega), content]
  simp [CString.terminated]

theorem bufferGetString_text {buffer : Buffer} (block : buffer.Block) (ordered : buffer.Ordered)
    {text : CString} {rest : List UInt8}
    (content : buffer.data.drop buffer.position.toNat = text.terminated ++ rest)
    (fits : buffer.position + text.terminated.length ≤ buffer.limit) :
    bufferGetString buffer = .ok
      (text.bytes, { buffer with position := buffer.position + text.terminated.length }) := by
  have nonneg := ordered.nonneg
  have within := ordered.within
  have small := block.small
  have length := block.length
  have total := text.terminated_length
  have scan := strlen_of_terminated nonneg content
  have out := cString_of_terminated nonneg content
  have remaining : bufferRemaining buffer = buffer.limit - buffer.position :=
    int32_of_mem (by omega) (by omega)
  have len : int32 ((text.bytes.length : Int) + 1) = text.bytes.length + 1 :=
    int32_of_mem (by omega) (by omega)
  have advance : int32 (buffer.position + ((text.bytes.length : Int) + 1)) =
      buffer.position + text.terminated.length :=
    (int32_of_mem (by omega) (by omega)).trans (by omega)
  simp only [bufferGetString, scan, out, remaining, len, advance, bind, Except.bind, pure,
    Except.pure]
  rw [if_neg (by omega)]

/-- A value at the position is read back and passed. -/
theorem getValue_written {buffer : Buffer} (block : buffer.Block) (ordered : buffer.Ordered)
    {value : Value} {rest : List UInt8}
    (content : buffer.data.drop buffer.position.toNat = value.encoded ++ rest)
    (fits : buffer.position + value.encoded.length ≤ buffer.limit) :
    getValue buffer value = .ok
      (some value.bytes, { buffer with position := buffer.position + value.encoded.length }) := by
  cases value with
  | block bytes =>
      have read := bufferGet_ok block ordered (show (0 : Int) ≤ bytes.length by omega) fits
      rw [content] at read
      simpa [getValue, Value.encoded, Value.bytes] using read
  | text text =>
      have read := bufferGetString_text block ordered content fits
      simp only [getValue, read, bind, Except.bind, pure, Except.pure, Value.encoded, Value.bytes]

/-! ## Whole lists -/

theorem putValues_spec {buffer : Buffer} (block : buffer.Block) (ordered : buffer.Ordered)
    {values : List Value} (representable : Representable buffer.limit buffer.position values) :
    ∃ after, putValues buffer values =
        .ok (fitting buffer.limit buffer.position values, after) ∧
      after.Block ∧ after.Ordered ∧ after.limit = buffer.limit ∧
      after.position =
        buffer.position + encodedLength (fitting buffer.limit buffer.position values) ∧
      after.data.take after.position.toNat = buffer.data.take buffer.position.toNat ++
        (fitting buffer.limit buffer.position values).flatMap Value.encoded ∧
      ∀ value rest, values = fitting buffer.limit buffer.position values ++ value :: rest →
        Refuses buffer (fitting buffer.limit buffer.position values) value after := by
  have nonneg := ordered.nonneg
  have within := ordered.within
  have length := block.length
  induction values generalizing buffer with
  | nil =>
      refine ⟨buffer, rfl, block, ordered, rfl, by simp [encodedLength, fitting],
        by simp [fitting], ?_⟩
      intro value rest split
      simp at split
  | cons value values ih =>
      by_cases fits : buffer.position + value.encoded.length ≤ buffer.limit
      · have kept := (block.overwrite value.encoded nonneg (by omega)
          (buffer.position + value.encoded.length) buffer.limit).2
        have step := putValue_fits block ordered fits
        have ordered' : Buffer.Ordered { buffer with
            data := buffer.data.take buffer.position.toNat ++ value.encoded ++
              buffer.data.drop (buffer.position.toNat + value.encoded.length)
            position := buffer.position + value.encoded.length } :=
          ⟨by simp only; omega, fits, within⟩
        obtain ⟨after, written, block', final, limit, position, content, refused⟩ :=
          ih kept ordered' (representable.2 fits) ordered'.nonneg within kept.length
        have first : fitting buffer.limit buffer.position (value :: values) =
            value :: fitting buffer.limit (buffer.position + value.encoded.length) values :=
          if_pos fits
        refine ⟨after, ?_, block', final, limit, ?_, ?_, ?_⟩
        · simp only [putValues, step, written, first, bind, Except.bind, pure, Except.pure,
            if_true]
        · rw [position, first]
          simp only [encodedLength, List.flatMap_cons, List.length_append]
          omega
        · rw [content, first, List.flatMap_cons, ← List.append_assoc]
          congr 1
          exact List.take_left' (by
            simp only [List.length_append, List.length_take]
            omega)
        · intro refusedValue rest split
          rw [first] at split ⊢
          obtain ⟨before, puts, refuses, same⟩ :=
            refused refusedValue rest (List.cons.inj split).2
          refine ⟨before, ?_, refuses, same⟩
          simp only [putValues, step, puts, bind, Except.bind, pure, Except.pure, if_true]
      · have first : fitting buffer.limit buffer.position (value :: values) = [] := if_neg fits
        have step := putValue_refused block ordered representable.1 (by omega)
        refine ⟨buffer, ?_, block, ordered, rfl, by simp [first, encodedLength],
          by simp [first], ?_⟩
        · simp only [putValues, step, first, bind, Except.bind, pure, Except.pure,
            Bool.false_eq_true, if_false]
        · intro refusedValue rest split
          rw [first] at split ⊢
          cases split
          exact ⟨buffer, rfl, step, rfl⟩

theorem getValues_spec {buffer : Buffer} (block : buffer.Block) (ordered : buffer.Ordered)
    {values : List Value} {rest : List UInt8}
    (content : buffer.data.drop buffer.position.toNat =
      values.flatMap Value.encoded ++ rest)
    (fits : buffer.position + encodedLength values ≤ buffer.limit) :
    getValues buffer values = .ok (values.map Value.bytes,
      { buffer with position := buffer.position + encodedLength values }) := by
  have nonneg := ordered.nonneg
  induction values generalizing buffer with
  | nil => simp [getValues, encodedLength, pure, Except.pure]
  | cons value values ih =>
      simp only [List.flatMap_cons, List.append_assoc] at content
      simp only [encodedLength, List.flatMap_cons, List.length_append] at fits
      have step := getValue_written block ordered content (by omega)
      have moved : Buffer.Block { buffer with
          position := buffer.position + value.encoded.length } :=
        ⟨block.nonneg, block.small, block.length⟩
      have ordered' : Buffer.Ordered { buffer with
          position := buffer.position + value.encoded.length } :=
        ⟨by simp only; omega, by simp only; omega, ordered.within⟩
      have later : buffer.data.drop (buffer.position + value.encoded.length).toNat =
          values.flatMap Value.encoded ++ rest := by
        have sum : (buffer.position + value.encoded.length).toNat =
            buffer.position.toNat + value.encoded.length := by omega
        rw [sum, ← List.drop_drop, content, List.drop_left]
      have tail := ih moved ordered' later (by simp only [encodedLength]; omega) ordered'.nonneg
      simp only [getValues, step, tail, bind, Except.bind, pure, Except.pure, List.map_cons,
        encodedLength, List.flatMap_cons, List.length_append, Int.natCast_add, Int.add_assoc]

/-- At the limit a read of at least one byte is refused exactly when the sum
of limit and size is an `int`. -/
theorem bufferGet_refused_iff {buffer : Buffer} (block : buffer.Block) (ordered : buffer.Ordered)
    (drained : buffer.position = buffer.limit) {size : Int} (positive : 0 < size)
    (upper : size < 2147483648) :
    bufferGet buffer size = .ok (none, buffer) ↔ buffer.position + size < 2147483648 := by
  constructor
  · intro refused
    by_contra wraps
    have outside := window_wraps block ordered (by omega) wraps
    rw [bufferGet, if_neg outside] at refused
    simp only [bind, Except.bind, pure, Except.pure] at refused
    split at refused <;> simp at refused
  · intro representable
    exact bufferGet_underflow ordered (by omega) representable (by omega)

theorem readsBack_iff {after : Buffer} (block : after.Block) (ordered : after.Ordered)
    {written : List Value} (position : after.position = encodedLength written)
    (content : after.data.take after.position.toNat = written.flatMap Value.encoded) {size : Int}
    (positive : 0 < size) (upper : size < 2147483648) :
    ReadsBack written after size ↔ encodedLength written + size < 2147483648 := by
  have nonneg := ordered.nonneg
  have flippedOrdered : (bufferFlip after).Ordered :=
    ⟨le_refl _, nonneg, ordered.below.trans ordered.within⟩
  have flippedBlock : (bufferFlip after).Block := ⟨block.nonneg, block.small, block.length⟩
  have start : (bufferFlip after).data.drop (bufferFlip after).position.toNat =
      written.flatMap Value.encoded ++ after.data.drop after.position.toNat := by
    rw [← content]
    exact (List.take_append_drop _ _).symm
  have read := getValues_spec flippedBlock flippedOrdered start
    (by simp only [bufferFlip]; omega)
  simp only [bufferFlip, Int.zero_add] at read
  have drained := bufferGet_refused_iff
    (show Buffer.Block
        { after with position := encodedLength written, limit := after.position } from
      ⟨block.nonneg, block.small, block.length⟩)
    ⟨by simp only; omega, by simp only; omega, ordered.below.trans ordered.within⟩
    position.symm positive upper
  rw [← drained]
  constructor
  · intro refuses
    obtain ⟨last, result, _, refused⟩ := refuses
    cases read.symm.trans result
    exact refused
  · intro refused
    exact ⟨_, read, position.symm, refused⟩

/-- The round trip holds exactly when the bytes written and the size of the
final read together fit an `int`. -/
theorem putValues_round_trip_iff {buffer : Buffer} (block : buffer.Block)
    (ordered : buffer.Ordered) {values : List Value}
    (representable : Representable buffer.limit buffer.position values) {size : Int}
    (positive : 0 < size) (upper : size < 2147483648) :
    RoundTrips buffer values size ↔ (buffer.position = 0 →
      encodedLength (fitting buffer.limit buffer.position values) + size < 2147483648) := by
  obtain ⟨after, written, block', ordered', limit, position, content, refused⟩ :=
    putValues_spec block ordered representable
  have readsBack : buffer.position = 0 →
      (ReadsBack (fitting buffer.limit buffer.position values) after size ↔
        encodedLength (fitting buffer.limit buffer.position values) + size < 2147483648) := by
    intro start
    rw [start] at position content ⊢
    exact readsBack_iff block' ordered' (by simpa using position) (by simpa using content)
      positive upper
  constructor
  · intro trips start
    obtain ⟨_, _, result, _, _, back⟩ := trips
    cases written.symm.trans result
    exact (readsBack start).mp (back start)
  · intro sum
    exact ⟨_, after, written, rfl, refused, fun start => (readsBack start).mpr (sum start)⟩

/-- The equivalence for a block and a text that ends exactly at the limit,
followed by a value that does not fit. -/
theorem putValues_round_trip_of_five :
    RoundTrips { size := 5, data := [0, 0, 0, 0, 0, 0, 0], position := 0, limit := 5 }
        [.block [7, 8], .text ⟨[65, 66], by decide⟩, .block [9]] 1 ↔
      ((0 : Int) = 0 → encodedLength (fitting 5 0
        [.block [7, 8], .text ⟨[65, 66], by decide⟩, .block [9]]) + 1 < 2147483648) :=
  putValues_round_trip_iff ⟨by decide, by decide, by decide⟩ (by decide)
    (by simp [Representable, Value.encoded]) (by decide) (by decide)

/-- After one byte a read of the largest `int` leaves the block. -/
theorem putValues_round_trip_outside :
    ¬ ∀ (buffer : Buffer) (values : List Value) (size : Int), buffer.Block → buffer.Ordered →
      Representable buffer.limit buffer.position values → 0 < size → size < 2147483648 →
      RoundTrips buffer values size := by
  intro claimed
  obtain ⟨written, after, result, _, _, back⟩ := claimed
    { size := 4, data := [0, 0, 0, 0, 0, 0], position := 0, limit := 4 } [.block [7]] 2147483647
    ⟨by decide, by decide, by decide⟩ (by decide) (by simp [Representable, Value.encoded])
    (by decide) (by decide)
  cases result
  obtain ⟨last, read, _, refused⟩ := back rfl
  cases read
  cases refused

end Aio4c
