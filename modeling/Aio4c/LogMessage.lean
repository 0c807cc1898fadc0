import Aio4c.Alloc
import Aio4c.Library.SignedInt

/-! The message that `Log` builds. Name, text and newline are printed one behind the other,
each into the room that the untruncated lengths of those in front leave. -/

set_option autoImplicit false

namespace Aio4c

open SignedInt

/-- `AIO4C_LOG_THREAD_NAME_SIZE`. -/
def logThreadNameSize : Nat := 32

/-- `AIO4C_LOG_MESSAGE_SIZE`. -/
def logMessageSize : Nat := logThreadNameSize + 256

inductive LogLevel where
  | fatal
  | error
  | warn
  | info
  | debug
  | max
  deriving DecidableEq, Repr

def LogLevel.toNat : LogLevel → Nat
  | .fatal => 0
  | .error => 1
  | .warn => 2
  | .info => 3
  | .debug => 4
  | .max => 5

/-- The fields of `Logger` that `Log` reads; of the handler, whether it is not NULL. -/
structure Logger where
  custom : Bool
  level : LogLevel
  handler : Bool
  deriving DecidableEq, Repr

def Logger.Filters (logger : Logger) (level : LogLevel) : Prop :=
  (logger.custom = false ∧ logger.level.toNat < level.toNat) ∨ logger.handler = false

instance (logger : Logger) (level : LogLevel) : Decidable (logger.Filters level) :=
  inferInstanceAs (Decidable (_ ∨ _))

/-- What a format and its arguments come to, without the NUL. `vsnprintf` returns the length,
which is an `int`. -/
structure Formatted where
  bytes : List UInt8
  length_lt : bytes.length < 2147483648

/-- A thread name that `"%s: "` can be printed with. -/
structure ThreadName where
  bytes : List UInt8
  length_lt : bytes.length + 2 < 2147483648

/-- `"%s: "`. -/
def ThreadName.formatted (name : ThreadName) : Formatted :=
  { bytes := name.bytes ++ [58, 32], length_lt := by simpa using name.length_lt }

/-- `"\n"`. -/
def newline : Formatted := { bytes := [10], length_lt := by decide }

/-- `vsnprintf` to an offset of a block; `none` is NULL. -/
def vsnprintf (buffer : Option (List UInt8)) (offset : Int) (room : Nat) (text : Formatted) :
    Access (Option (List UInt8) × Int) :=
  if room = 0 then .ok (buffer, text.bytes.length)
  else
    match buffer with
    | none => .error .outOfBounds
    | some block => do
        let written ← writeBytes block offset (text.bytes.take (room - 1) ++ [0])
        return (some written, text.bytes.length)

/-- `_logsnprintf`: the buffer and `*pos` behind the call. -/
def logSnprintf (buffer : Option (List UInt8)) (pos len : Int) (text : Formatted) :
    Access (Option (List UInt8) × Int) := do
  let (buffer, printed) ← vsnprintf buffer pos (sizeT (int32 (len - pos))) text
  let printed := if printed < 0 then 0 else printed
  return (buffer, int32 (pos + printed))

/-- The second half of `_logprefix`. `self` is the name of the calling thread, where it is in
the table of threads and has one. -/
def logName (self : Option ThreadName) (message : Option (List UInt8)) (pos : Int) :
    Access (Option (List UInt8) × Int) :=
  match self with
  | none => .ok (message, pos)
  | some name => logSnprintf message pos logMessageSize name.formatted

/-- `_logprefix`: `*pMessage` and `*pos` behind the call. -/
def logPrefix (malloc : Nat → Bool) (self : Option ThreadName) (message : Option (List UInt8))
    (pos : Int) (allocate : Bool) : Access (Option (List UInt8) × Int) :=
  if allocate then do
    match ← aio4cMalloc malloc logMessageSize with
    | none => return (message, -1)
    | some block => logName self (some block) 0
  else logName self message pos

/-- `Log`: the pointer that is handed to the handler, if the handler is called. -/
def log (logger : Logger) (malloc : Nat → Bool) (self : Option ThreadName) (level : LogLevel)
    (message : Formatted) : Access (Option (Option (List UInt8))) :=
  if logger.Filters level then .ok none
  else do
    let (buffer, pos) ← logPrefix malloc self none 0 true
    let (buffer, len) ← vsnprintf buffer pos (sizeT (int32 (logMessageSize - pos))) message
    let len := if len < 0 then 0 else len
    let (buffer, _) ← logSnprintf buffer (int32 (pos + len)) logMessageSize newline
    return some buffer

/-- The name in front of the message. -/
def logLead : Option ThreadName → List UInt8
  | none => []
  | some name => name.formatted.bytes

/-- The line that a call stands for. -/
def logLine (self : Option ThreadName) (message : Formatted) : List UInt8 :=
  logLead self ++ message.bytes ++ newline.bytes

/-- The call touches nothing outside the block it allocates, and what it hands to the handler is
the line or the start of it. -/
def LogsInside (logger : Logger) (malloc : Nat → Bool) (self : Option ThreadName)
    (level : LogLevel) (message : Formatted) : Prop :=
  ∃ handed, log logger malloc self level message = .ok handed ∧
    ∀ pointer, handed = some pointer → ∃ block text,
      pointer = some block ∧ cString block 0 = .ok text ∧ text <+: logLine self message

/-! ## Printing behind what is printed -/

theorem logMessageSize_eq : logMessageSize = 288 := rfl

/-- The block holds the text as far as there is room for it, and a NUL. -/
structure Printed (block text : List UInt8) : Prop where
  length : block.length = logMessageSize
  content : ∃ rest, block = text.take (logMessageSize - 1) ++ 0 :: rest

theorem printed_empty : Printed (List.replicate logMessageSize 0) [] where
  length := List.length_replicate
  content := ⟨List.replicate (logMessageSize - 1) 0, rfl⟩

namespace Printed

variable {block text : List UInt8}

/-- The size in front of the end of the block is what is left of it. -/
theorem room (fits : text.length ≤ logMessageSize) :
    sizeT (int32 ((logMessageSize : Int) - text.length)) = logMessageSize - text.length := by
  rw [logMessageSize_eq] at fits ⊢
  rw [int32_of_mem (by omega) (by omega), sizeT_of_nonneg (by omega) (by omega)]
  omega

theorem vsnprintf (printed : Printed block text) (fits : text.length ≤ logMessageSize)
    (added : Formatted) :
    ∃ after, vsnprintf (some block) text.length
        (sizeT (int32 ((logMessageSize : Int) - text.length))) added =
          .ok (some after, added.bytes.length) ∧ Printed after (text ++ added.bytes) := by
  obtain ⟨rest, content⟩ := printed.content
  have length := printed.length
  rw [logMessageSize_eq] at fits length content
  rw [room fits, logMessageSize_eq]
  by_cases full : text.length = 288
  · -- no room: the block stays as it is, and so does the part of the text in it
    refine ⟨block, ?_, printed.length, rest, ?_⟩
    · simp [Aio4c.vsnprintf, full]
    · rw [content, logMessageSize_eq, List.take_append_of_le_length (by omega)]
  · have whole : text.take (288 - 1) = text := List.take_of_length_le (by omega)
    have front : block.take text.length = text := by rw [content, whole, List.take_left]
    let fitting := added.bytes.take (288 - text.length - 1)
    have short : fitting.length ≤ 288 - text.length - 1 := List.length_take_le _ _
    have written : writeBytes block text.length (fitting ++ [0]) =
        .ok (text ++ fitting ++ 0 :: block.drop (text.length + (fitting.length + 1))) := by
      rw [writeBytes_ok (Int.natCast_nonneg _) (by
        rw [List.length_append, List.length_singleton]
        omega)]
      simp [front]
    have behind : (text ++ added.bytes).take (288 - 1) = text ++ fitting := by
      rw [List.take_append, whole, Nat.sub_right_comm]
    refine ⟨text ++ fitting ++ 0 :: block.drop (text.length + (fitting.length + 1)), ?_, ?_, ?_⟩
    · rw [Aio4c.vsnprintf, if_neg (by omega)]
      simp only [fitting, written, bind, Except.bind, pure, Except.pure]
    · simp only [List.length_append, List.length_cons, List.length_drop, length, logMessageSize_eq]
      omega
    · exact ⟨_, by rw [logMessageSize_eq, behind]⟩

theorem cString (printed : Printed block text) :
    ∃ handed, cString block 0 = .ok handed ∧ handed <+: text := by
  obtain ⟨rest, content⟩ := printed.content
  have member : (0 : UInt8) ∈ block := by simp [content]
  have index : block.idxOf 0 ≤ (text.take (logMessageSize - 1)).length := by
    rw [content, List.idxOf_append]
    split
    · exact List.idxOf_le_length
    · simp
  have inside : block.idxOf 0 < block.length := List.idxOf_lt_length_of_mem member
  refine ⟨block.take (block.idxOf 0), ?_, ?_⟩
  · simp only [Aio4c.cString, strlen, Int.toNat_zero, List.drop_zero, bind, Except.bind]
    rw [if_pos ⟨Int.le_refl 0, member⟩]
    simp only
    rw [readBytes_ok (Int.le_refl 0) (by omega)]
    rfl
  · have shortened : block.take (block.idxOf 0) =
        (text.take (logMessageSize - 1)).take (block.idxOf 0) := by
      rw [content, List.take_append_of_le_length]
      rwa [content] at index
    rw [shortened]
    exact (List.take_prefix _ _).trans (List.take_prefix _ _)

end Printed

/-! ## Printing outside -/

/-- A position that is not in the block leaves a room that is not 0: it is negative and becomes
a size, or larger than the block. -/
theorem room_outside {pos : Int} (lower : -2147483648 ≤ pos) (upper : pos < 2147483648)
    (outside : pos < 0 ∨ (logMessageSize : Int) < pos) :
    sizeT (int32 ((logMessageSize : Int) - pos)) ≠ 0 := by
  rw [logMessageSize_eq] at outside ⊢
  unfold sizeT int32
  omega

theorem vsnprintf_outside {buffer : Option (List UInt8)} {pos : Int}
    (lower : -2147483648 ≤ pos) (upper : pos < 2147483648)
    (outside : pos < 0 ∨ (logMessageSize : Int) < pos)
    (length : ∀ block, buffer = some block → block.length = logMessageSize) (text : Formatted) :
    vsnprintf buffer pos (sizeT (int32 ((logMessageSize : Int) - pos))) text =
      .error .outOfBounds := by
  have room := room_outside lower upper outside
  cases buffer with
  | none => simp only [vsnprintf, if_neg room]
  | some block =>
      have size := length block rfl
      have past (bytes : List UInt8) :
          ¬ (0 ≤ pos ∧ pos + ((bytes ++ [0]).length : Nat) ≤ block.length) := by
        rw [size, List.length_append, List.length_singleton]
        omega
      have filled (bytes : List UInt8) : bytes ++ [(0 : UInt8)] ≠ [] := by simp
      simp only [vsnprintf, writeBytes]
      rw [if_neg room, if_neg (filled _), if_neg (past _)]
      rfl

/-! ## The calls -/

theorem logSnprintf_printed {block text : List UInt8} (printed : Printed block text)
    (fits : text.length ≤ logMessageSize) (added : Formatted) :
    ∃ after, logSnprintf (some block) text.length logMessageSize added =
        .ok (some after, int32 ((text.length : Int) + added.bytes.length)) ∧
      Printed after (text ++ added.bytes) := by
  obtain ⟨after, result, behind⟩ := printed.vsnprintf fits added
  refine ⟨after, ?_, behind⟩
  simp only [logSnprintf, result, bind, Except.bind, pure, Except.pure]
  rw [if_neg (by omega)]

theorem logSnprintf_outside {buffer : Option (List UInt8)} {pos : Int}
    (lower : -2147483648 ≤ pos) (upper : pos < 2147483648)
    (outside : pos < 0 ∨ (logMessageSize : Int) < pos)
    (length : ∀ block, buffer = some block → block.length = logMessageSize) (text : Formatted) :
    logSnprintf buffer pos logMessageSize text = .error .outOfBounds := by
  simp only [logSnprintf, vsnprintf_outside lower upper outside length text, bind, Except.bind]

/-- Where the length of the text leaves the position, also if it wraps. -/
theorem advance_outside {pos length : Nat} (fits : pos ≤ logMessageSize)
    (small : length < 2147483648) (long : logMessageSize < pos + length) :
    int32 ((pos : Int) + length) < 0 ∨ (logMessageSize : Int) < int32 ((pos : Int) + length) := by
  rw [logMessageSize_eq] at fits long ⊢
  unfold int32
  omega

theorem logLead_length_lt (self : Option ThreadName) : (logLead self).length < 2147483648 := by
  cases self with
  | none => decide
  | some name => exact name.formatted.length_lt

/-- A granted block holds the name, or the start of it, behind `_logprefix`. -/
theorem logPrefix_granted {malloc : Nat → Bool}
    (granted : malloc (logMessageSize + headerSize) = true) (self : Option ThreadName) :
    ∃ block, logPrefix malloc self none 0 true = .ok (some block, (logLead self).length) ∧
      Printed block (logLead self) := by
  have allocated : aio4cMalloc malloc logMessageSize =
      .ok (some (List.replicate logMessageSize 0)) := by
    rw [aio4cMalloc_eq malloc (by decide) (by decide)]
    exact (if_pos granted).trans rfl
  simp only [logPrefix, allocated, if_true, bind, Except.bind]
  cases self with
  | none => exact ⟨_, rfl, printed_empty⟩
  | some name =>
      obtain ⟨after, result, printed⟩ :=
        logSnprintf_printed printed_empty (Nat.zero_le _) name.formatted
      have length := name.formatted.length_lt
      have advance : int32 ((([] : List UInt8).length : Int) + name.formatted.bytes.length) =
          name.formatted.bytes.length :=
        (int32_of_mem (by omega) (by simpa using length)).trans (by simp)
      rw [advance] at result
      exact ⟨after, result, printed⟩

theorem logPrefix_refused {malloc : Nat → Bool}
    (refused : malloc (logMessageSize + headerSize) = false) (self : Option ThreadName) :
    logPrefix malloc self none 0 true = .ok (none, -1) := by
  have allocated : aio4cMalloc malloc logMessageSize = .ok none := by
    rw [aio4cMalloc_eq malloc (by decide) (by decide)]
    exact if_neg (fun granted => Bool.false_ne_true (refused.symm.trans granted))
  simp only [logPrefix, allocated, if_true, bind, Except.bind]
  rfl

theorem log_eq {logger : Logger} {malloc : Nat → Bool} {self : Option ThreadName} {level : LogLevel}
    (passes : ¬ logger.Filters level) (message : Formatted) :
    log logger malloc self level message = (do
      let (buffer, pos) ← logPrefix malloc self none 0 true
      let (buffer, pos) ← logSnprintf buffer pos logMessageSize message
      let (buffer, _) ← logSnprintf buffer pos logMessageSize newline
      return some buffer) := by
  simp only [log, if_neg passes, logSnprintf, bind_assoc, pure_bind]

section

variable {logger : Logger} {malloc : Nat → Bool} {self : Option ThreadName} {level : LogLevel}
  {message : Formatted}

theorem log_fails {buffer : Option (List UInt8)} {pos : Int} (passes : ¬ logger.Filters level)
    (lead : logPrefix malloc self none 0 true = .ok (buffer, pos))
    (text : logSnprintf buffer pos logMessageSize message = .error .outOfBounds) :
    log logger malloc self level message = .error .outOfBounds := by
  simp only [log_eq passes, lead, text, bind, Except.bind]

/-- What is left of the call behind the message. -/
theorem log_ends {buffer printed : Option (List UInt8)} {pos behind : Int}
    (passes : ¬ logger.Filters level)
    (lead : logPrefix malloc self none 0 true = .ok (buffer, pos))
    (text : logSnprintf buffer pos logMessageSize message = .ok (printed, behind)) :
    log logger malloc self level message =
      (logSnprintf printed behind logMessageSize newline).map fun last => some last.1 := by
  simp only [log_eq passes, lead, text, bind, Except.bind]
  cases logSnprintf printed behind logMessageSize newline <;> rfl

theorem logsInside_of_filters (filters : logger.Filters level) :
    LogsInside logger malloc self level message :=
  ⟨none, if_pos filters, by simp⟩

theorem log_refused (passes : ¬ logger.Filters level)
    (refused : malloc (logMessageSize + headerSize) = false) :
    log logger malloc self level message = .error .outOfBounds := by
  have null : ∀ block : List UInt8, none = some block → block.length = logMessageSize := by simp
  have print := logSnprintf_outside (show -2147483648 ≤ (-1 : Int) by decide) (by decide)
    (Or.inl (by decide)) null message
  exact log_fails passes (logPrefix_refused refused self) print

/-- The name alone is longer than the block. -/
theorem log_lead_outside (passes : ¬ logger.Filters level)
    (granted : malloc (logMessageSize + headerSize) = true)
    (long : logMessageSize < (logLead self).length) :
    log logger malloc self level message = .error .outOfBounds := by
  obtain ⟨block, lead, printed⟩ := logPrefix_granted granted self
  have small := logLead_length_lt self
  have length : ∀ other, some block = some other → other.length = logMessageSize := by
    simp [printed.length]
  have print := logSnprintf_outside (by omega) (by omega) (Or.inr (Int.ofNat_lt.mpr long)) length
    message
  exact log_fails passes lead print

theorem log_newline_outside (passes : ¬ logger.Filters level)
    (granted : malloc (logMessageSize + headerSize) = true)
    (fits : (logLead self).length ≤ logMessageSize)
    (long : logMessageSize < (logLead self).length + message.bytes.length) :
    log logger malloc self level message = .error .outOfBounds := by
  obtain ⟨block, lead, printed⟩ := logPrefix_granted granted self
  obtain ⟨after, text, behind⟩ := logSnprintf_printed printed fits message
  have small := message.length_lt
  have range := int32_mem (((logLead self).length : Int) + message.bytes.length)
  have length : ∀ block, some after = some block → block.length = logMessageSize := by
    simp [behind.length]
  have print := logSnprintf_outside range.1 range.2 (advance_outside fits message.length_lt long)
    length newline
  rw [log_ends passes lead text, print]
  rfl

theorem log_inside (passes : ¬ logger.Filters level)
    (granted : malloc (logMessageSize + headerSize) = true)
    (fits : (logLead self).length + message.bytes.length ≤ logMessageSize) :
    LogsInside logger malloc self level message := by
  obtain ⟨block, lead, printed⟩ := logPrefix_granted granted self
  obtain ⟨named, text, behind⟩ := logSnprintf_printed printed (by omega) message
  have advance : int32 (((logLead self).length : Int) + message.bytes.length) =
      ((logLead self ++ message.bytes).length : Nat) := by
    rw [logMessageSize_eq] at fits
    rw [List.length_append, int32_of_mem (by omega) (by omega), Int.natCast_add]
  obtain ⟨whole, last, line⟩ := logSnprintf_printed behind (by simpa using fits) newline
  obtain ⟨handed, read, start⟩ := line.cString
  refine ⟨some (some whole), ?_, ?_⟩
  · rw [advance] at text
    rw [log_ends passes lead text, last]
    rfl
  · intro pointer called
    exact ⟨whole, handed, (Option.some.inj called).symm, read, start⟩

end

/-- `Log` stays inside its block and hands on the line or the start of it exactly where it hands
on nothing, or gets the block and name and message together do not exceed it. -/
theorem log_inside_iff (logger : Logger) (malloc : Nat → Bool) (self : Option ThreadName)
    (level : LogLevel) (message : Formatted) :
    LogsInside logger malloc self level message ↔
      logger.Filters level ∨ malloc (logMessageSize + headerSize) = true ∧
        (logLead self).length + message.bytes.length ≤ logMessageSize := by
  have faults (fault : log logger malloc self level message = .error .outOfBounds) :
      ¬ LogsInside logger malloc self level message := by
    intro ⟨handed, result, _⟩
    rw [fault] at result
    cases result
  constructor
  · intro inside
    by_contra neither
    rw [not_or, not_and, Nat.not_le] at neither
    obtain ⟨passes, long⟩ := neither
    refine faults ?_ inside
    cases granted : malloc (logMessageSize + headerSize) with
    | false => exact log_refused passes granted
    | true =>
        by_cases fits : (logLead self).length ≤ logMessageSize
        · exact log_newline_outside passes granted fits (long granted)
        · exact log_lead_outside passes granted (Nat.lt_of_not_le fits)
  · intro condition
    by_cases filters : logger.Filters level
    · exact logsInside_of_filters filters
    · obtain ⟨granted, fits⟩ := condition.resolve_left filters
      exact log_inside filters granted fits

/-- A message of 289 bytes, logged by a thread without a name: the text is cut, and the newline
is written behind the block. -/
theorem log_newline_behind :
    ¬ ∀ logger malloc self level message, LogsInside logger malloc self level message := by
  intro inside
  let message : Formatted :=
    { bytes := List.replicate 289 97, length_lt := by rw [List.length_replicate]; decide }
  have long : logMessageSize < (logLead none).length + message.bytes.length := by
    rw [List.length_replicate]
    decide
  obtain ⟨handed, result, _⟩ := inside { custom := false, level := .debug, handler := true }
    (fun _ => true) none .info message
  rw [log_newline_outside (by decide) rfl (by decide) long] at result
  cases result

end Aio4c
