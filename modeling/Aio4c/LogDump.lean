import Aio4c.BufferProperties
import Aio4c.LogMessage

/-! The dump of a buffer that `LogBuffer` builds: a header, then a line for every 16 bytes,
printed piece by piece into a block whose size is estimated beforehand. -/

set_option autoImplicit false

namespace Aio4c

open SignedInt

/-- `AIO4C_LOG_BUFFER_SIZE`: a full line and its NUL. -/
def logBufferSize : Nat := 77

/-! ## The pieces -/

def asciiBytes (text : String) : List UInt8 := text.toList.map fun c => UInt8.ofNat c.toNat

def hexDigit (digit : Nat) : UInt8 :=
  if digit < 10 then UInt8.ofNat (48 + digit) else UInt8.ofNat (87 + digit)

/-- The `unsigned` that `%x` and `%u` see of an `int`. -/
def unsigned (value : Int) : Nat := (value % 4294967296).toNat

/-- `"%u"`. -/
def decimal (value : Int) : List UInt8 :=
  match ((List.range 10).map fun k => unsigned value / 10 ^ (9 - k) % 10).dropWhile (· = 0) with
  | [] => [48]
  | digits => digits.map fun digit => UInt8.ofNat (48 + digit)

/-- `"%02x "`. -/
def hexCell (byte : UInt8) : Formatted :=
  { bytes := [hexDigit (byte.toNat / 16), hexDigit (byte.toNat % 16), 32]
    length_lt := by simp }

/-- `"%s"` of three blanks. -/
def blankCell : Formatted := { bytes := [32, 32, 32], length_lt := by simp }

/-- `"%c"` of a byte that `isprint` accepts, else of a dot. -/
def charCell (isprint : UInt8 → Bool) (byte : UInt8) : Formatted :=
  { bytes := [if isprint byte then byte else 46], length_lt := by simp }

/-- `"0x%08x: "`. -/
def lineStart (i : Int) : Formatted :=
  { bytes := [48, 120] ++ (List.range 8).map (fun k => hexDigit (unsigned i / 16 ^ (7 - k) % 16)) ++
      [58, 32]
    length_lt := by simp }

/-- What `%p` prints. -/
structure PointerText where
  bytes : List UInt8
  length_lt : bytes.length + 68 < 2147483648

theorem decimal_length (value : Int) : (decimal value).length ≤ 10 := by
  have short := (List.dropWhile_sublist (fun digit => decide (digit = 0))
    (l := (List.range 10).map fun k => unsigned value / 10 ^ (9 - k) % 10)).length_le
  unfold decimal
  split
  · decide
  · simpa using short

/-- `"dumping buffer %p [pos: %u, lim: %u, cap: %u]\n"`. -/
def dumpHeaderBytes (pointer : PointerText) (buffer : Buffer) : List UInt8 :=
  asciiBytes "dumping buffer " ++ pointer.bytes ++ asciiBytes " [pos: " ++
    decimal buffer.position ++ asciiBytes ", lim: " ++ decimal buffer.limit ++
    asciiBytes ", cap: " ++ decimal buffer.size ++ asciiBytes "]\n"

theorem dumpHeaderBytes_length_le (pointer : PointerText) (buffer : Buffer) :
    (dumpHeaderBytes pointer buffer).length ≤ pointer.bytes.length + 68 := by
  have position := decimal_length buffer.position
  have limit := decimal_length buffer.limit
  have size := decimal_length buffer.size
  have fixed : (asciiBytes "dumping buffer ").length + (asciiBytes " [pos: ").length +
      (asciiBytes ", lim: ").length + (asciiBytes ", cap: ").length +
      (asciiBytes "]\n").length = 38 := by decide
  simp only [dumpHeaderBytes, List.length_append]
  omega

def dumpHeader (pointer : PointerText) (buffer : Buffer) : Formatted :=
  { bytes := dumpHeaderBytes pointer buffer
    length_lt := (dumpHeaderBytes_length_le pointer buffer).trans_lt pointer.length_lt }

/-! ## The function -/

/-- `text`, `pos`, and the position and length of every piece printed so far. -/
structure Dump where
  text : Option (List UInt8)
  pos : Int
  calls : List (Int × Nat)

/-- `_logsnprintf(text, &pos, len, ...)`. -/
def printPiece (len : Int) (dump : Dump) (piece : Formatted) : Access Dump := do
  let printed ← logSnprintf dump.text dump.pos len piece
  return { text := printed.1, pos := printed.2,
           calls := dump.calls ++ [(dump.pos, piece.bytes.length)] }

/-- `bdata[index]`. -/
def byteAt (data : List UInt8) (index : Int) : Access UInt8 :=
  match data[index.toNat]? with
  | some byte => if 0 ≤ index then .ok byte else .error .outOfBounds
  | none => .error .outOfBounds

section Loops

variable (isprint : UInt8 → Bool) (data : List UInt8) (blim len i : Int)

/-- The first inner loop, `left` rounds from column `j`. -/
def printHex : Nat → Nat → Dump → Access Dump
  | 0, _, dump => .ok dump
  | left + 1, j, dump => do
      let cell ← if int32 (i + j) < blim then (byteAt data (int32 (i + j))).map hexCell
        else .ok blankCell
      let dump ← printPiece len dump cell
      printHex left (j + 1) dump

/-- The second inner loop, at most `left` rounds from column `j`. -/
def printChars : Nat → Nat → Dump → Access Dump
  | 0, _, dump => .ok dump
  | left + 1, j, dump =>
      if int32 (i + j) < blim then do
        let byte ← byteAt data (int32 (i + j))
        let dump ← printPiece len dump (charCell isprint byte)
        printChars left (j + 1) dump
      else .ok dump

/-- The body of the outer loop. -/
def printLine (dump : Dump) : Access Dump := do
  let dump ← printPiece len dump (lineStart i)
  let dump ← printHex data blim len i 16 0 dump
  let dump ← printChars isprint data blim len i 16 0 dump
  printPiece len dump newline

end Loops

/-- The outer loop; `none` if it has not ended after the given number of tests. -/
def printLines (isprint : UInt8 → Bool) (data : List UInt8) (blim len : Int) :
    Nat → Int → Dump → Access (Option Dump)
  | 0, _, _ => .ok none
  | tests + 1, i, dump =>
      if i < blim then do
        let dump ← printLine isprint data blim len i dump
        printLines isprint data blim len tests (int32 (i + 16)) dump
      else .ok (some dump)

/-- The size of the text block: products and quotients with `AIO4C_LOG_BUFFER_SIZE` are taken in
`size_t`. -/
def dumpLength (bpos blim : Int) : Int :=
  let len := int32 ((logBufferSize * sizeT (int32 (blim - bpos))) % 18446744073709551616 / 16 : Nat)
  let len := if (int32 (blim - bpos)).tmod 16 ≠ 0 then
      int32 ((sizeT len + logBufferSize) % 18446744073709551616 : Nat)
    else len
  int32 (len + logMessageSize)

/-- `LogBuffer` returns early, has not ended after enough tests of its loop, or hands a text to
the handler. -/
inductive DumpOutcome where
  | dropped
  | unfinished
  | handed (dump : Dump)

/-- `LogBuffer`. -/
def logBuffer (logger : Logger) (malloc : Nat → Bool) (self : Option ThreadName)
    (isprint : UInt8 → Bool) (pointer : PointerText) (level : LogLevel) (buffer : Buffer) :
    Access DumpOutcome :=
  if logger.Filters level then .ok .dropped
  else do
    let len := dumpLength buffer.position buffer.limit
    match ← aio4cMalloc malloc len with
    | none => return .dropped
    | some block =>
        let named ← logPrefix malloc self (some block) 0 false
        let dump : Dump := { text := named.1, pos := named.2, calls := [] }
        let dump ← printPiece len dump (dumpHeader pointer buffer)
        match ← printLines isprint buffer.data buffer.limit len
            (((buffer.limit - buffer.position).toNat + 15) / 16 + 2) buffer.position dump with
        | none => return .unfinished
        | some dump => return .handed dump

/-! ## What it is to print -/

section Lines

variable (isprint : UInt8 → Bool) (data : List UInt8) (blim : Int)

/-- The columns of a line that are in front of the limit. -/
def columns (i : Int) : List Nat := (List.range 16).filter fun j : Nat => decide (i + j < blim)

/-- The pieces of the line of the bytes from `i`. -/
def linePieces (i : Int) : List Formatted :=
  lineStart i ::
    (List.range 16).map (fun j : Nat => if i + j < blim then hexCell (data.getD (i + j).toNat 0)
      else blankCell) ++
    (columns blim i).map (fun j : Nat => charCell isprint (data.getD (i + j).toNat 0)) ++
    [newline]

/-- The pieces of so many lines from `i` on. -/
def dumpPieces : Nat → Int → List Formatted
  | 0, _ => []
  | lines + 1, i => linePieces isprint data blim i ++ dumpPieces lines (i + 16)

end Lines

/-- The number of bytes from the position to the limit. -/
def Buffer.windowSize (buffer : Buffer) : Nat := (buffer.limit - buffer.position).toNat

/-- The lines it takes for these bytes, 16 on each. -/
def dumpLineCount (buffer : Buffer) : Nat := (buffer.windowSize + 15) / 16

/-- The whole dump: the name of the thread, the header and the lines. -/
def dumpText (self : Option ThreadName) (isprint : UInt8 → Bool) (pointer : PointerText)
    (buffer : Buffer) : List UInt8 :=
  logLead self ++ dumpHeaderBytes pointer buffer ++
    (dumpPieces isprint buffer.data buffer.limit (dumpLineCount buffer) buffer.position).flatMap
      Formatted.bytes

/-- The text fills its block with the whole dump and a NUL, and every piece was printed at a
position inside the block and had room in front of its NUL. -/
structure Dump.Complete (dump : Dump) (len : Int) (printed : List UInt8) : Prop where
  block : ∃ rest, dump.text = some (printed ++ 0 :: rest) ∧
    ((printed ++ 0 :: rest).length : Int) = len
  calls : ∀ call ∈ dump.calls, 0 ≤ call.1 ∧ call.1 < len ∧ call.1 + call.2 < len

/-- The call stays inside its block, ends, and hands on the whole dump if it hands on anything. -/
def DumpsInside (logger : Logger) (malloc : Nat → Bool) (self : Option ThreadName)
    (isprint : UInt8 → Bool) (pointer : PointerText) (level : LogLevel) (buffer : Buffer) : Prop :=
  ∃ outcome, logBuffer logger malloc self isprint pointer level buffer = .ok outcome ∧
    outcome ≠ .unfinished ∧ ∀ dump, outcome = .handed dump →
      dump.Complete (dumpLength buffer.position buffer.limit) (dumpText self isprint pointer buffer)

/-! ## Printing with room to spare -/

/-- A piece that ends in front of the last byte is printed whole and terminated. -/
theorem logSnprintf_whole {text rest : List UInt8} {limit : Int}
    (within : limit ≤ ((text ++ 0 :: rest).length : Nat)) (small : limit < 2147483648)
    (added : Formatted) (room : (text.length : Int) + added.bytes.length < limit) :
    ∃ rest', logSnprintf (some (text ++ 0 :: rest)) text.length limit added =
        .ok (some (text ++ added.bytes ++ 0 :: rest'),
          ((text ++ added.bytes).length : Nat)) ∧
      (text ++ added.bytes ++ 0 :: rest').length = (text ++ 0 :: rest).length := by
  have size : sizeT (int32 (limit - text.length)) = (limit - text.length).toNat := by
    rw [int32_of_mem (by omega) (by omega), sizeT_of_nonneg (by omega) (by omega)]
  have whole : added.bytes.take ((limit - text.length).toNat - 1) = added.bytes :=
    List.take_of_length_le (by omega)
  have inside : (text.length : Int) + ((added.bytes ++ [0]).length : Nat) ≤
      ((text ++ 0 :: rest).length : Nat) := by
    rw [List.length_append, List.length_singleton]
    omega
  have advance : int32 ((text.length : Int) + added.bytes.length) =
      ((text ++ added.bytes).length : Nat) := by
    rw [int32_of_mem (by omega) (by omega), List.length_append, Int.natCast_add]
  have written : writeBytes (text ++ 0 :: rest) text.length (added.bytes ++ [0]) =
      .ok (text ++ added.bytes ++ 0 :: (0 :: rest).drop (added.bytes.length + 1)) := by
    rw [writeBytes_ok (Int.natCast_nonneg _) inside]
    simp
  refine ⟨(0 :: rest).drop (added.bytes.length + 1), ?_, ?_⟩
  · simp only [logSnprintf, vsnprintf, size, whole, written, bind, Except.bind, pure, Except.pure]
    rw [if_neg (by omega)]
    simp only
    rw [if_neg (by omega), advance]
  · simp only [List.length_append, List.length_cons, List.length_drop] at within ⊢
    omega

/-- The state in which so much of the text is printed. -/
structure Dump.Holds (dump : Dump) (len : Int) (printed : List UInt8) : Prop extends
    dump.Complete len printed where
  pos : dump.pos = printed.length

theorem printPiece_ok {dump : Dump} {len : Int} {text : List UInt8} (holds : dump.Holds len text)
    (small : len < 2147483648) (piece : Formatted)
    (room : (text.length : Int) + piece.bytes.length < len) :
    ∃ after, printPiece len dump piece = .ok after ∧ after.Holds len (text ++ piece.bytes) := by
  obtain ⟨rest, block, length⟩ := holds.block
  obtain ⟨rest', printed, same⟩ := logSnprintf_whole (Int.le_of_eq length.symm) small piece room
  refine ⟨_, by simp only [printPiece, block, holds.pos, printed, bind, Except.bind]; rfl,
    ⟨⟨rest', rfl, ?_⟩, ?_⟩, rfl⟩
  · rw [same, length]
  · intro call member
    rcases List.mem_append.mp member with earlier | last
    · exact holds.calls call earlier
    · rw [List.mem_singleton.mp last]
      constructor
      · exact Int.natCast_nonneg _
      · simp only
        omega

/-- The pieces one after the other. -/
def printAll (len : Int) : List Formatted → Dump → Access Dump
  | [], dump => .ok dump
  | piece :: pieces, dump => do
      let dump ← printPiece len dump piece
      printAll len pieces dump

theorem printAll_append (len : Int) (pieces others : List Formatted) (dump : Dump) :
    printAll len (pieces ++ others) dump = (do
      let dump ← printAll len pieces dump
      printAll len others dump) := by
  induction pieces generalizing dump with
  | nil => rfl
  | cons piece pieces ih =>
      simp only [List.cons_append, printAll, bind_assoc]
      exact bind_congr fun after => ih after

theorem printAll_ok {pieces : List Formatted} {dump : Dump} {len : Int} {text : List UInt8}
    (holds : dump.Holds len text) (small : len < 2147483648)
    (room : (text.length : Int) + (pieces.flatMap Formatted.bytes).length < len) :
    ∃ after, printAll len pieces dump = .ok after ∧
      after.Holds len (text ++ pieces.flatMap Formatted.bytes) := by
  induction pieces generalizing dump text with
  | nil => exact ⟨dump, rfl, by simpa using holds⟩
  | cons piece pieces ih =>
      rw [List.flatMap_cons, List.length_append] at room
      obtain ⟨middle, first, held⟩ := printPiece_ok holds small piece (by omega)
      obtain ⟨after, rest, final⟩ := ih held (by rw [List.length_append]; omega)
      refine ⟨after, ?_, ?_⟩
      · simpa only [printAll, first, bind, Except.bind] using rest
      · rw [List.flatMap_cons, ← List.append_assoc]
        exact final

/-! ## The loops as long as no index wraps -/

theorem byteAt_ok {data : List UInt8} {index : Int} (lower : 0 ≤ index)
    (upper : index < data.length) : byteAt data index = .ok (data.getD index.toNat 0) := by
  have inside : index.toNat < data.length := by omega
  simp [byteAt, inside, lower]

section Loops

variable {isprint : UInt8 → Bool} {data : List UInt8} {blim len i : Int}

theorem printHex_eq (lower : 0 ≤ i) (upper : i + 15 < 2147483648) (inside : blim ≤ data.length)
    {left j : Nat} (columns : j + left ≤ 16) (dump : Dump) :
    printHex data blim len i left j dump =
      printAll len ((List.range' j left).map fun j : Nat =>
        if i + j < blim then hexCell (data.getD (i + j).toNat 0) else blankCell) dump := by
  induction left generalizing j dump with
  | zero => rfl
  | succ left ih =>
      have index : int32 (i + j) = i + j := int32_of_mem (by omega) (by omega)
      rw [printHex, index, List.range'_succ, List.map_cons, printAll]
      by_cases before : i + j < blim
      · rw [if_pos before, if_pos before, byteAt_ok (by omega) (by omega)]
        exact bind_congr fun after => ih (by omega) after
      · rw [if_neg before, if_neg before]
        exact bind_congr fun after => ih (by omega) after

theorem printChars_eq (lower : 0 ≤ i) (upper : i + 15 < 2147483648) (inside : blim ≤ data.length)
    {left j : Nat} (columns : j + left ≤ 16) (dump : Dump) :
    printChars isprint data blim len i left j dump =
      printAll len (((List.range' j left).filter fun j : Nat => decide (i + j < blim)).map
        fun j : Nat => charCell isprint (data.getD (i + j).toNat 0)) dump := by
  induction left generalizing j dump with
  | zero => rfl
  | succ left ih =>
      have index : int32 (i + j) = i + j := int32_of_mem (by omega) (by omega)
      rw [printChars, index]
      by_cases before : i + j < blim
      · rw [if_pos before, byteAt_ok (by omega) (by omega), List.range'_succ,
          List.filter_cons_of_pos (by simpa using before), List.map_cons, printAll]
        exact bind_congr fun after => ih (by omega) after
      · have none :
            ((List.range' j (left + 1)).filter fun j : Nat => decide (i + j < blim)) = [] := by
          rw [List.filter_eq_nil_iff]
          intro column member
          have behind := (List.mem_range'_1.mp member).1
          simp only [decide_eq_true_eq]
          omega
        rw [if_neg before, none]
        rfl

theorem printLine_eq (lower : 0 ≤ i) (upper : i + 15 < 2147483648) (inside : blim ≤ data.length)
    (dump : Dump) :
    printLine isprint data blim len i dump =
      printAll len (linePieces isprint data blim i) dump := by
  have range : List.range 16 = List.range' 0 16 := List.range_eq_range'
  simp only [printLine, linePieces, columns, range, List.cons_append, List.append_assoc]
  refine bind_congr fun first => ?_
  rw [printHex_eq lower upper inside (Nat.le_refl 16), printAll_append]
  refine bind_congr fun second => ?_
  rw [printChars_eq lower upper inside (Nat.le_refl 16), printAll_append]
  exact bind_congr fun third => (bind_pure (printPiece len third newline)).symm

/-- The lines of a window whose last full line ends in front of where indices wrap. -/
theorem printLines_eq {lines tests : Nat} (enough : lines < tests)
    (count : lines = ((blim - i).toNat + 15) / 16) (lower : 0 ≤ i)
    (upper : i + 16 * lines < 2147483648) (inside : blim ≤ data.length) (dump : Dump) :
    printLines isprint data blim len tests i dump = (do
      let dump ← printAll len (dumpPieces isprint data blim lines i) dump
      return some dump) := by
  induction lines generalizing i tests dump with
  | zero =>
      obtain ⟨tests, rfl⟩ := Nat.exists_eq_add_of_lt enough
      rw [Nat.zero_add, printLines, if_neg (by omega)]
      rfl
  | succ lines ih =>
      obtain ⟨tests, rfl⟩ := Nat.exists_eq_add_of_lt (Nat.lt_of_le_of_lt (Nat.zero_le _) enough)
      have next : int32 (i + 16) = i + 16 := int32_of_mem (by omega) (by omega)
      rw [Nat.zero_add, printLines, if_pos (by omega), next, dumpPieces, printAll_append,
        printLine_eq lower (by omega) inside, bind_assoc]
      exact bind_congr fun after =>
        ih (by omega) (by omega) (by omega) (by omega) after

end Loops

/-! ## The room for the text -/

/-- The computed length, in unbounded numbers. -/
def dumpRoom (window : Nat) : Nat :=
  logBufferSize * window / 16 + (if window % 16 = 0 then 0 else logBufferSize) + logMessageSize

theorem logSize_eq {size : Nat} (small : size < 4294967296 * 77) :
    size % 18446744073709551616 = size :=
  Nat.mod_eq_of_lt (small.trans (by decide))

theorem dumpLength_eq {bpos blim : Int} {window : Nat} (length : blim - bpos = window)
    (fits : dumpRoom window < 2147483648) : dumpLength bpos blim = dumpRoom window := by
  have size : logBufferSize = 77 := rfl
  rw [dumpRoom, size, logMessageSize_eq] at fits
  have small : window < 2147483648 := by split at fits <;> omega
  have product : 77 * window % 18446744073709551616 = 77 * window := logSize_eq (by omega)
  have quotient : 77 * window / 16 < 2147483648 := by omega
  have rest : (window : Int).tmod 16 = (window % 16 : Nat) := by
    rw [Int.tmod_eq_emod_of_nonneg (Int.natCast_nonneg _), Int.natCast_emod]
    rfl
  rw [dumpLength, dumpRoom, length, size, logMessageSize_eq, int32_natCast small,
    sizeT_natCast (small.trans (by decide)), product, int32_natCast quotient, rest]
  by_cases full : window % 16 = 0
  · rw [if_pos full] at fits ⊢
    rw [full, if_neg (by decide)]
    exact int32_natCast fits
  · have partly : ((window % 16 : Nat) : Int) ≠ 0 := by omega
    rw [if_neg full] at fits ⊢
    have longer : 77 * window / 16 + 77 < 2147483648 := by omega
    have sum : (77 * window / 16 + 77) % 18446744073709551616 = 77 * window / 16 + 77 :=
      logSize_eq (longer.trans (by decide))
    simp only [partly, ne_eq, not_false_eq_true, if_true]
    rw [sizeT_natCast (quotient.trans (by decide)), sum, int32_natCast longer]
    exact int32_natCast fits

theorem columns_length_le (blim i : Int) : (columns blim i).length ≤ (blim - i).toNat := by
  have before : columns blim i ⊆ List.range (blim - i).toNat := by
    intro column member
    have column_lt := of_decide_eq_true (List.mem_filter.mp member).2
    rw [List.mem_range]
    omega
  have distinct : (columns blim i).Nodup := List.nodup_range.filter _
  simpa using distinct.length_le_of_subset before

theorem flatMap_bytes_length (width : Nat) {pieces : List Formatted}
    (each : ∀ piece ∈ pieces, piece.bytes.length = width) :
    (pieces.flatMap Formatted.bytes).length = pieces.length * width := by
  induction pieces with
  | nil => simp
  | cons piece pieces ih =>
      rw [List.flatMap_cons, List.length_append, each piece (by simp),
        ih (fun piece member => each piece (by simp [member])), List.length_cons, Nat.add_mul,
        Nat.one_mul, Nat.add_comm]

theorem linePieces_length (isprint : UInt8 → Bool) (data : List UInt8) (blim i : Int) :
    ((linePieces isprint data blim i).flatMap Formatted.bytes).length =
      61 + (columns blim i).length := by
  have start : (lineStart i).bytes.length = 12 := by simp [lineStart]
  have cells := flatMap_bytes_length 3 (show ∀ cell ∈ (List.range 16).map (fun j : Nat =>
      if i + j < blim then hexCell (data.getD (i + j).toNat 0) else blankCell),
      cell.bytes.length = 3 by
    intro cell member
    obtain ⟨j, _, rfl⟩ := List.mem_map.mp member
    split <;> rfl)
  have chars := flatMap_bytes_length 1 (show ∀ cell ∈ (columns blim i).map (fun j : Nat =>
      charCell isprint (data.getD (i + j).toNat 0)), cell.bytes.length = 1 by
    intro cell member
    obtain ⟨j, _, rfl⟩ := List.mem_map.mp member
    rfl)
  rw [List.length_map, List.length_range] at cells
  rw [List.length_map] at chars
  have last : ([newline].flatMap Formatted.bytes).length = 1 := rfl
  rw [linePieces, List.flatMap_append, List.flatMap_append, List.flatMap_cons, List.length_append,
    List.length_append, List.length_append, start, cells, chars, last]
  omega

/-- What is printed behind the header, in terms of the lines and of the window. -/
theorem dumpPieces_length_le (isprint : UInt8 → Bool) (data : List UInt8) {blim i : Int}
    {lines : Nat} (count : lines = ((blim - i).toNat + 15) / 16) :
    ((dumpPieces isprint data blim lines i).flatMap Formatted.bytes).length ≤
      61 * lines + (blim - i).toNat := by
  induction lines generalizing i with
  | zero => simp [dumpPieces]
  | succ lines ih =>
      have later := ih (show lines = ((blim - (i + 16)).toNat + 15) / 16 by omega)
      have bytes := columns_length_le blim i
      have sixteen : (columns blim i).length ≤ 16 := by
        exact (List.length_filter_le _ _).trans (Nat.le_of_eq List.length_range)
      rw [dumpPieces, List.flatMap_append, List.length_append, linePieces_length]
      omega

/-- The estimate has room for a header of 200 characters and for the lines, whatever is left over
from the division. -/
theorem dumpRoom_gt (window : Nat) :
    201 + (61 * ((window + 15) / 16) + window) < dumpRoom window := by
  have size : logBufferSize = 77 := rfl
  rw [dumpRoom, size, logMessageSize_eq]
  split <;> omega

/-! ## The loops once an index wraps -/

theorem byteAt_negative (data : List UInt8) {index : Int} (negative : index < 0) :
    byteAt data index = .error .outOfBounds := by
  unfold byteAt
  split
  · exact if_neg (by omega)
  · rfl

section Wrapping

variable {isprint : UInt8 → Bool} {data : List UInt8} {blim len i : Int}

/-- The hexadecimal columns read in front of the bytes as soon as one of their indices is
negative. -/
theorem printHex_fails (nonneg : 0 ≤ blim) {left j column : Nat} (first : j ≤ column)
    (last : column < j + left) (negative : int32 (i + column) < 0) (dump : Dump) :
    printHex data blim len i left j dump = .error .outOfBounds := by
  induction left generalizing j dump with
  | zero => exact absurd last (by omega)
  | succ left ih =>
      rw [printHex]
      by_cases here : column = j
      · subst here
        rw [if_pos (Int.lt_of_lt_of_le negative nonneg), byteAt_negative data negative]
        rfl
      · have later (cell : Formatted) : (do
            let after ← printPiece len dump cell
            printHex data blim len i left (j + 1) after) = .error .outOfBounds :=
          Access.bind_fails fun after => ih (by omega) (by omega) after
        split
        · exact Access.bind_fails later
        · exact later blankCell

theorem printLine_fails (nonneg : 0 ≤ blim) {column : Nat} (within : column < 16)
    (negative : int32 (i + column) < 0) (dump : Dump) :
    printLine isprint data blim len i dump = .error .outOfBounds := by
  refine Access.bind_fails fun first => ?_
  rw [printHex_fails nonneg (Nat.zero_le column) (by omega) negative]
  rfl

/-- The lines of a window that reach to where indices wrap: a column of the last of them wraps, or
its successor does and the loop goes on from there. -/
theorem printLines_fails {lines tests : Nat} (enough : lines + 1 < tests)
    (count : lines = ((blim - i).toNat + 15) / 16) (lower : 0 ≤ i) (upper : i < 2147483648)
    (nonneg : 0 ≤ blim) (wraps : 2147483648 ≤ i + 16 * lines) (dump : Dump) :
    printLines isprint data blim len tests i dump = .error .outOfBounds := by
  induction lines generalizing i tests dump with
  | zero => omega
  | succ lines ih =>
      obtain ⟨tests, rfl⟩ := Nat.exists_eq_add_of_lt (Nat.lt_of_le_of_lt (Nat.zero_le _) enough)
      rw [Nat.zero_add, printLines, if_pos (by omega)]
      by_cases within : i + 16 < 2147483648
      · rw [int32_of_mem (by omega) within]
        exact Access.bind_fails fun after =>
          ih (by omega) (by omega) (by omega) within (by omega) after
      · by_cases column : i + 15 < 2147483648
        · -- the line is printed; its successor starts at the least `int`
          have next : int32 (i + 16) = -2147483648 := by
            rw [int32_of_overflow (by omega) (by omega)]
            omega
          obtain ⟨tests, rfl⟩ := Nat.exists_eq_add_of_lt (show 0 < tests by omega)
          rw [next]
          refine Access.bind_fails fun after => ?_
          rw [Nat.zero_add, printLines, if_pos (by omega),
            printLine_fails nonneg (show 0 < 16 by decide) (by decide)]
          rfl
        · rw [printLine_fails nonneg (show 15 < 16 by decide) (by
            rw [int32_of_overflow (by omega) (by omega)]
            omega)]
          rfl

end Wrapping

/-! ## The call -/

section

variable {logger : Logger} {malloc : Nat → Bool} {self : Option ThreadName}
  (isprint : UInt8 → Bool) {pointer : PointerText} {level : LogLevel} {buffer : Buffer} {len : Int}

theorem Buffer.Ordered.windowSize_eq (ordered : buffer.Ordered) :
    buffer.limit - buffer.position = buffer.windowSize := by
  have below := ordered.below
  unfold Buffer.windowSize
  omega

theorem logPrefix_holds (malloc : Nat → Bool) (self : Option ThreadName)
    (lower : (logMessageSize : Int) ≤ len) (upper : len < 2147483648)
    (short : (logLead self).length < logMessageSize) :
    ∃ text pos, logPrefix malloc self (some (List.replicate len.toNat 0)) 0 false =
        .ok (text, pos) ∧
      Dump.Holds { text, pos, calls := [] } len (logLead self) := by
  rw [logMessageSize_eq] at lower short
  have blank : List.replicate len.toNat (0 : UInt8) = 0 :: List.replicate (len.toNat - 1) 0 := by
    rw [← List.replicate_succ]
    congr 1
    omega
  have length : ((0 :: List.replicate (len.toNat - 1) (0 : UInt8)).length : Int) = len := by
    rw [← blank, List.length_replicate]
    omega
  cases self with
  | none =>
      exact ⟨_, _, rfl, ⟨⟨_, congrArg some blank, length⟩, by simp⟩, rfl⟩
  | some name =>
      have fits : (288 : Int) ≤
          (([] ++ 0 :: List.replicate (len.toNat - 1) (0 : UInt8)).length : Nat) :=
        lower.trans (Int.le_of_eq length.symm)
      obtain ⟨rest, printed, same⟩ := logSnprintf_whole fits (by decide) name.formatted
        (by simpa [logLead] using short)
      refine ⟨_, _, ?_, ⟨⟨rest, rfl, ?_⟩, by simp⟩, rfl⟩
      · rw [blank]
        exact printed
      · exact (congrArg Int.ofNat same).trans length

/-- Where the block is granted, what is left to do behind the header are the lines. -/
theorem logBuffer_headed (ordered : buffer.Ordered) (passes : ¬ logger.Filters level)
    (granted : malloc (dumpRoom buffer.windowSize + headerSize) = true)
    (header : (logLead self).length + (dumpHeaderBytes pointer buffer).length ≤ 201)
    (fits : dumpRoom buffer.windowSize < 2147483648) :
    ∃ dump : Dump, dump.Holds (dumpLength buffer.position buffer.limit)
        (logLead self ++ dumpHeaderBytes pointer buffer) ∧
      logBuffer logger malloc self isprint pointer level buffer = (do
        match ← printLines isprint buffer.data buffer.limit
            (dumpLength buffer.position buffer.limit) (dumpLineCount buffer + 2)
            buffer.position dump with
        | none => return .unfinished
        | some last => return .handed last) := by
  have len := dumpLength_eq ordered.windowSize_eq fits
  have room : logMessageSize ≤ dumpRoom buffer.windowSize := Nat.le_add_left _ _
  have allocated : aio4cMalloc malloc (dumpLength buffer.position buffer.limit) =
      .ok (some (List.replicate (dumpLength buffer.position buffer.limit).toNat 0)) := by
    rw [len, aio4cMalloc_natCast malloc fits, if_pos granted, Int.toNat_natCast]
  obtain ⟨text, pos, lead, holds⟩ := logPrefix_holds malloc self
    (show (logMessageSize : Int) ≤ dumpLength buffer.position buffer.limit by omega)
    (by omega) (by rw [logMessageSize_eq]; omega)
  obtain ⟨dump, headed, held⟩ := printPiece_ok holds (by omega) (dumpHeader pointer buffer)
    (by rw [logMessageSize_eq] at room; simp only [dumpHeader]; omega)
  refine ⟨dump, held, ?_⟩
  simp only [logBuffer, if_neg passes, allocated, bind, Except.bind, lead, headed]
  rfl

theorem logBuffer_refused (ordered : buffer.Ordered) (passes : ¬ logger.Filters level)
    (refused : malloc (dumpRoom buffer.windowSize + headerSize) = false)
    (fits : dumpRoom buffer.windowSize < 2147483648) :
    logBuffer logger malloc self isprint pointer level buffer = .ok .dropped := by
  have len := dumpLength_eq ordered.windowSize_eq fits
  have allocated : aio4cMalloc malloc (dumpLength buffer.position buffer.limit) = .ok none := by
    rw [len, aio4cMalloc_natCast malloc fits, if_neg (by simp [refused])]
  simp only [logBuffer, if_neg passes, allocated, bind, Except.bind]
  rfl

theorem logBuffer_fails (ordered : buffer.Ordered) (block : buffer.Block)
    (passes : ¬ logger.Filters level)
    (granted : malloc (dumpRoom buffer.windowSize + headerSize) = true)
    (header : (logLead self).length + (dumpHeaderBytes pointer buffer).length ≤ 201)
    (fits : dumpRoom buffer.windowSize < 2147483648)
    (wraps : 2147483648 ≤ buffer.position + 16 * dumpLineCount buffer) :
    logBuffer logger malloc self isprint pointer level buffer = .error .outOfBounds := by
  have nonneg := ordered.nonneg
  have below := ordered.below
  have within := ordered.within
  have small := block.small
  obtain ⟨dump, _, headed⟩ := logBuffer_headed isprint ordered passes granted header fits
  have lines : dumpLineCount buffer = ((buffer.limit - buffer.position).toNat + 15) / 16 := rfl
  rw [headed, printLines_fails (Nat.lt_succ_self (dumpLineCount buffer + 1)) lines nonneg (by omega)
    (by omega) wraps]
  rfl

theorem logBuffer_complete (ordered : buffer.Ordered) (block : buffer.Block)
    (passes : ¬ logger.Filters level)
    (granted : malloc (dumpRoom buffer.windowSize + headerSize) = true)
    (header : (logLead self).length + (dumpHeaderBytes pointer buffer).length ≤ 201)
    (fits : dumpRoom buffer.windowSize < 2147483648)
    (before : buffer.position + 16 * dumpLineCount buffer < 2147483648) :
    ∃ dump, logBuffer logger malloc self isprint pointer level buffer = .ok (.handed dump) ∧
      dump.Complete (dumpLength buffer.position buffer.limit)
        (dumpText self isprint pointer buffer) := by
  have below := ordered.below
  have within := ordered.within
  have length := block.length
  have len := dumpLength_eq ordered.windowSize_eq fits
  obtain ⟨dump, held, headed⟩ := logBuffer_headed isprint ordered passes granted header fits
  have lines : dumpLineCount buffer = ((buffer.limit - buffer.position).toNat + 15) / 16 := rfl
  have pieces := dumpPieces_length_le isprint buffer.data lines
  have estimate := dumpRoom_gt buffer.windowSize
  have room : (((logLead self ++ dumpHeaderBytes pointer buffer).length : Nat) : Int) +
      ((dumpPieces isprint buffer.data buffer.limit (dumpLineCount buffer)
        buffer.position).flatMap Formatted.bytes).length <
          dumpLength buffer.position buffer.limit := by
    rw [len, List.length_append]
    unfold dumpLineCount Buffer.windowSize at *
    omega
  obtain ⟨last, printed, complete⟩ := printAll_ok held (by omega) room
  refine ⟨last, ?_, complete.toComplete⟩
  rw [headed, printLines_eq (Nat.lt_add_of_pos_right Nat.zero_lt_two) lines ordered.nonneg before
    (by omega), printed]
  rfl

end

/-- `LogBuffer` prints the whole dump into its block exactly where it does not get to print, or the
last line, taken as a full one, ends in front of where `int` wraps. -/
theorem logBuffer_inside_iff (logger : Logger) (malloc : Nat → Bool) (self : Option ThreadName)
    (isprint : UInt8 → Bool) (pointer : PointerText) (level : LogLevel) {buffer : Buffer}
    (block : buffer.Block) (ordered : buffer.Ordered)
    (header : (logLead self).length + (dumpHeaderBytes pointer buffer).length ≤ 201)
    (fits : dumpRoom buffer.windowSize < 2147483648) :
    DumpsInside logger malloc self isprint pointer level buffer ↔
      logger.Filters level ∨ malloc (dumpRoom buffer.windowSize + headerSize) = false ∨
        buffer.position + 16 * dumpLineCount buffer < 2147483648 := by
  constructor
  · intro inside
    by_contra neither
    rw [not_or, not_or, Bool.not_eq_false, Int.not_lt] at neither
    obtain ⟨passes, granted, wraps⟩ := neither
    obtain ⟨outcome, result, _⟩ := inside
    rw [logBuffer_fails isprint ordered block passes granted header fits wraps] at result
    cases result
  · intro condition
    by_cases filters : logger.Filters level
    · exact ⟨.dropped, if_pos filters, by simp, by simp⟩
    · cases granted : malloc (dumpRoom buffer.windowSize + headerSize) with
      | false =>
          exact ⟨.dropped, logBuffer_refused isprint ordered filters granted fits, by simp,
            by simp⟩
      | true =>
          have before := (condition.resolve_left filters).resolve_left (by simp [granted])
          obtain ⟨dump, result, complete⟩ :=
            logBuffer_complete isprint ordered block filters granted header fits before
          refine ⟨.handed dump, result, by simp, ?_⟩
          intro handed same
          rw [← DumpOutcome.handed.inj same]
          exact complete

/-- Five bytes of a small buffer. -/
theorem logBuffer_inside_five :
    DumpsInside { custom := false, level := .debug, handler := true } (fun _ => true) none
      (fun _ => true) { bytes := [], length_lt := by decide } .debug
      { size := 8, data := List.replicate 10 65, position := 1, limit := 6 } :=
  (logBuffer_inside_iff _ _ none _ _ _ ⟨by decide, by decide, by decide⟩
    ⟨by decide, by decide, by decide⟩ (by decide) (by decide)).mpr (.inr (.inr (by decide)))

/-- The last five bytes of the largest buffer: the ninth column of their line has no index. -/
theorem logBuffer_wraps :
    ¬ ∀ logger malloc self isprint pointer level (buffer : Buffer), buffer.Block → buffer.Ordered →
      (logLead self).length + (dumpHeaderBytes pointer buffer).length ≤ 201 →
      dumpRoom buffer.windowSize < 2147483648 →
      DumpsInside logger malloc self isprint pointer level buffer := by
  intro inside
  let buffer : Buffer :=
    { size := 2147483645, data := List.replicate 2147483647 0, position := 2147483640,
      limit := 2147483645 }
  let pointer : PointerText := { bytes := [], length_lt := by decide }
  let logger : Logger := { custom := false, level := .debug, handler := true }
  have block : buffer.Block :=
    ⟨by decide, by decide, (congrArg Int.ofNat List.length_replicate).trans (by decide)⟩
  have ordered : buffer.Ordered := ⟨by decide, by decide, by decide⟩
  have header : (logLead none).length + (dumpHeaderBytes pointer buffer).length ≤ 201 := by
    have short := dumpHeaderBytes_length_le pointer buffer
    have lead : (logLead none).length = 0 := rfl
    have empty : pointer.bytes.length = 0 := rfl
    omega
  have fits : dumpRoom buffer.windowSize < 2147483648 := by decide
  obtain ⟨outcome, result, _⟩ := inside logger (fun _ => true) none (fun _ => true) pointer .debug
    buffer block ordered header fits
  rw [logBuffer_fails _ ordered block (by decide) rfl header fits (by decide)] at result
  cases result

end Aio4c
