import Aio4c.LogMessage
import Aio4c.ReaderLoad
import Mathlib.Data.List.TakeWhile

/-! The command line of a program, as `Aio4cInit` reads it. An option is known by its first three
characters, and its operand is the next word whatever it looks like. -/

set_option autoImplicit false

namespace Aio4c

def nul : Char := Char.ofNat 0

/-- A word of `argv`, without its NUL. -/
structure Word where
  chars : List Char
  unterminated : nul ∉ chars
  deriving DecidableEq

/-- `word[i]`; there is nothing to read behind the NUL. -/
def Word.read (word : Word) (i : Nat) : Option Char := (word.chars ++ [nul])[i]?

/-- The variables that the command line sets. -/
structure Settings where
  logFile : Option Word
  logLevel : LogLevel
  statsOutputFile : Option Word
  statsInterval : Int
  statsEnablePeriodicOutput : Bool
  deriving DecidableEq

def defaultSettings : Settings :=
  { logFile := none, logLevel := .fatal, statsOutputFile := none, statsInterval := 0
    statsEnablePeriodicOutput := false }

/-- `LONG_MAX`. -/
def longMax : Int := 9223372036854775807

def isSpace (c : Char) : Bool := c.toNat = 32 || (9 ≤ c.toNat && c.toNat ≤ 13)

/-- `strtol` to base 10: what has no digits is 0, and what is too large comes back as a limit. -/
def strtol (chars : List Char) : Int :=
  let value (digits : List Char) : Int := Nat.ofDigitChars 10 (digits.takeWhile Char.isDigit) 0
  match chars.dropWhile isSpace with
  | '-' :: digits => max (-longMax - 1) (-value digits)
  | '+' :: digits => min longMax (value digits)
  | digits => min longMax (value digits)

def strcasecmp (left right : List Char) : Bool :=
  left.map Char.toLower == right.map Char.toLower

/-- The cast of an integer to `LogLevel`. -/
def logLevelOf : Nat → LogLevel
  | 0 => .fatal
  | 1 => .error
  | 2 => .warn
  | 3 => .info
  | 4 => .debug
  | _ => .max

/-- What `-Ll` does with its operand. -/
def Settings.setLogLevel (settings : Settings) (levelStr : Word) : Settings :=
  if strcasecmp "fatal".toList levelStr.chars then { settings with logLevel := .fatal }
  else if strcasecmp "error".toList levelStr.chars then { settings with logLevel := .error }
  else if strcasecmp "warn".toList levelStr.chars then { settings with logLevel := .warn }
  else if strcasecmp "info".toList levelStr.chars then { settings with logLevel := .info }
  else if strcasecmp "debug".toList levelStr.chars then { settings with logLevel := .debug }
  else
    let value := strtol levelStr.chars
    if value < LogLevel.max.toNat ∧ value ≥ 0 then
      { settings with logLevel := logLevelOf value.toNat }
    else settings

/-- What `-Si` does with its operand. -/
def Settings.setStatsInterval (settings : Settings) (interval : Word) : Settings :=
  let value := strtol interval.chars
  if value ≥ 0 ∧ value < intMax then { settings with statsInterval := value } else settings

/-- The options of the nested switches; any other word is `other`. -/
inductive ArgumentOption where
  | logFile
  | logLevel
  | statsOutputFile
  | statsInterval
  | statsEnablePeriodicOutput
  | help
  | other
  deriving DecidableEq, Repr

/-- The nested switches over the first three characters of a word. -/
def argumentOption (word : Word) : Option ArgumentOption := do
  if (← word.read 0) = '-' then
    let kind ← word.read 1
    if kind = 'L' then
      let option ← word.read 2
      return if option = 'o' then .logFile else if option = 'l' then .logLevel else .other
    else if kind = 'S' then
      let option ← word.read 2
      return if option = 'o' then .statsOutputFile else if option = 'i' then .statsInterval
        else if option = 'e' then .statsEnablePeriodicOutput else .other
    else if kind = 'A' then
      let option ← word.read 2
      return if option = 'h' then .help else .other
    else return .other
  else return .other

/-- `_ParseArguments` returns, or it ends the process behind the usage. -/
inductive Parsed where
  | settings (settings : Settings)
  | usage
  deriving DecidableEq

/-- The loop of `_ParseArguments` over the words behind the first; `none` is a read behind the end
of a word. An option that has no operand is skipped. -/
def parseArguments (settings : Settings) : List Word → Option Parsed
  | [] => some (.settings settings)
  | word :: words =>
      match argumentOption word, words with
      | none, _ => none
      | some .help, _ => some .usage
      | some .statsEnablePeriodicOutput, words =>
          parseArguments { settings with statsEnablePeriodicOutput := true } words
      | some .logFile, operand :: words =>
          parseArguments { settings with logFile := some operand } words
      | some .logLevel, operand :: words => parseArguments (settings.setLogLevel operand) words
      | some .statsOutputFile, operand :: words =>
          parseArguments { settings with statsOutputFile := some operand } words
      | some .statsInterval, operand :: words =>
          parseArguments (settings.setStatsInterval operand) words
      | _, words => parseArguments settings words

/-! ## What a command line says -/

/-- What a command line can ask for. -/
inductive Setting where
  | logFile (name : Word)
  | logLevel (level : LogLevel)
  | statsOutputFile (name : Word)
  | statsInterval (seconds : Nat)
  | statsEnablePeriodicOutput

def Settings.apply (settings : Settings) : Setting → Settings
  | .logFile name => { settings with logFile := some name }
  | .logLevel level => { settings with logLevel := level }
  | .statsOutputFile name => { settings with statsOutputFile := some name }
  | .statsInterval seconds => { settings with statsInterval := seconds }
  | .statsEnablePeriodicOutput => { settings with statsEnablePeriodicOutput := true }

/-- The names of the levels. -/
def LogLevel.name : LogLevel → List Char
  | .fatal => "fatal".toList
  | .error => "error".toList
  | .warn => "warn".toList
  | .info => "info".toList
  | .debug => "debug".toList
  | .max => []

/-- The options as the usage lists them. -/
def ArgumentOption.text : ArgumentOption → Option (List Char)
  | .logFile => some "-Lo".toList
  | .logLevel => some "-Ll".toList
  | .statsOutputFile => some "-So".toList
  | .statsInterval => some "-Si".toList
  | .statsEnablePeriodicOutput => some "-Se".toList
  | .help => some "-Ah".toList
  | .other => none

/-- The word starts with the option, or with none of them. -/
def Word.Is (word : Word) (option : ArgumentOption) : Prop :=
  match option.text with
  | some text => text <+: word.chars
  | none => ∀ (known : ArgumentOption) (text : List Char), known.text = some text →
      ¬ text <+: word.chars

/-- How a setting is written: a level by its name in any case or by its number, and numbers in
decimal digits. Other words ask for nothing. -/
inductive Written : List Word → Option Setting → Prop where
  | logFile {option name : Word} :
      option.Is .logFile → Written [option, name] (some (.logFile name))
  | levelName {option word : Word} {level : LogLevel} :
      option.Is .logLevel → level ≠ .max → word.chars.map Char.toLower = level.name →
      Written [option, word] (some (.logLevel level))
  | levelNumber {option word : Word} {level : LogLevel} :
      option.Is .logLevel → level ≠ .max → word.chars = Nat.toDigits 10 level.toNat →
      Written [option, word] (some (.logLevel level))
  | statsOutputFile {option name : Word} :
      option.Is .statsOutputFile → Written [option, name] (some (.statsOutputFile name))
  | statsInterval {option word : Word} {seconds : Nat} :
      option.Is .statsInterval → (seconds : Int) < intMax →
      word.chars = Nat.toDigits 10 seconds →
      Written [option, word] (some (.statsInterval seconds))
  | statsEnablePeriodicOutput {option : Word} :
      option.Is .statsEnablePeriodicOutput → Written [option] (some .statsEnablePeriodicOutput)
  | other {word : Word} : word.Is .other → Written [word] none

/-! ## The options -/

theorem argumentOption_of_is {word : Word} {option : ArgumentOption} (starts : word.Is option)
    {text : List Char} (same : option.text = some text) : argumentOption word = some option := by
  simp only [Word.Is, same] at starts
  obtain ⟨rest, chars⟩ := starts
  cases option <;> cases same <;> simp [argumentOption, Word.read, ← chars]

theorem argumentOption_short {word : Word} (short : word.chars.length < 3) :
    argumentOption word = some .other := by
  rcases word with ⟨_ | ⟨dash, _ | ⟨kind, _ | ⟨letter, rest⟩⟩⟩, _⟩
  · simp [argumentOption, Word.read, nul]
  · simp [argumentOption, Word.read, nul]
  · simp [argumentOption, Word.read, nul]
  · simp only [List.length_cons] at short
    omega

/-- No word is read behind its NUL. -/
theorem argumentOption_some (word : Word) : ∃ option, argumentOption word = some option := by
  rcases Nat.lt_or_ge word.chars.length 3 with short | long
  · exact ⟨_, argumentOption_short short⟩
  · rcases word with ⟨_ | ⟨dash, _ | ⟨kind, _ | ⟨letter, rest⟩⟩⟩, _⟩ <;> try simp at long
    simp only [argumentOption, Word.read, List.cons_append, List.getElem?_cons_zero,
      List.getElem?_cons_succ, Option.bind_eq_bind, Option.bind_some, Option.pure_def]
    split_ifs <;> exact ⟨_, rfl⟩

theorem argumentOption_is {word : Word} {option : ArgumentOption}
    (found : argumentOption word = some option) : word.Is option := by
  cases text : option.text with
  | none =>
      simp only [Word.Is, text]
      intro known start same starts
      have here : word.Is known := by
        simp only [Word.Is, same]
        exact starts
      have equal : option = known :=
        Option.some.inj (found.symm.trans (argumentOption_of_is here same))
      rw [equal, same] at text
      cases text
  | some start =>
      rcases Nat.lt_or_ge word.chars.length 3 with short | long
      · rw [argumentOption_short short] at found
        cases found
        cases text
      · rcases word with ⟨_ | ⟨dash, _ | ⟨kind, _ | ⟨letter, rest⟩⟩⟩, _⟩ <;> try simp at long
        simp only [argumentOption, Word.read, List.cons_append, List.getElem?_cons_zero,
          List.getElem?_cons_succ, Option.bind_eq_bind, Option.bind_some, Option.pure_def] at found
        split_ifs at found <;> cases found <;> cases text
        all_goals simp_all [Word.Is, ArgumentOption.text]

/-- The switches find the option that the word starts with. -/
theorem argumentOption_iff {word : Word} {option : ArgumentOption} :
    argumentOption word = some option ↔ word.Is option := by
  refine ⟨argumentOption_is, fun is => ?_⟩
  obtain ⟨found, result⟩ := argumentOption_some word
  cases text : option.text with
  | some start => exact argumentOption_of_is is text
  | none =>
      have same : option = .other := by cases option <;> first | rfl | cases text
      subst same
      cases start : found.text with
      | none =>
          have equal : found = .other := by cases found <;> first | rfl | cases start
          rw [result, equal]
      | some start' =>
          have starts := argumentOption_is result
          simp only [Word.Is, start] at starts
          exact absurd starts (is found start' start)

/-! ## Operands -/

theorem toNat_of_isDigit {c : Char} (digit : c.isDigit) : 48 ≤ c.toNat ∧ c.toNat ≤ 57 := by
  simpa [Char.isDigit, UInt32.le_iff_toNat_le] using digit

/-- A number in decimal digits is read back. -/
theorem strtol_toDigits {n : Nat} (small : (n : Int) ≤ longMax) :
    strtol (Nat.toDigits 10 n) = n := by
  have digits : ∀ c ∈ Nat.toDigits 10 n, c.isDigit = true := fun c member =>
    Nat.isDigit_of_mem_toDigits (by decide) (by decide) member
  have value := @Nat.ofDigitChars_ten_toDigits n
  have nonempty := @Nat.toDigits_ne_nil n 10
  generalize Nat.toDigits 10 n = chars at digits value nonempty
  obtain ⟨first, rest, rfl⟩ := List.exists_cons_of_ne_nil nonempty
  have bounds := toNat_of_isDigit (digits first List.mem_cons_self)
  have unspaced : isSpace first = false := by
    simp only [isSpace, Bool.or_eq_false_iff, Bool.and_eq_false_iff, decide_eq_false_iff_not]
    omega
  have unsigned : first ≠ '-' ∧ first ≠ '+' := by
    constructor
    · rintro rfl
      exact absurd bounds (by decide)
    · rintro rfl
      exact absurd bounds (by decide)
  have all : (first :: rest).takeWhile Char.isDigit = first :: rest :=
    List.takeWhile_eq_self_iff.mpr digits
  unfold strtol
  simp only [List.dropWhile_cons, unspaced, Bool.false_eq_true, if_false]
  split
  · next same => exact absurd (List.cons.inj same).1 unsigned.1
  · next same => exact absurd (List.cons.inj same).1 unsigned.2
  · rw [all, value]
    exact min_eq_right small

theorem setLogLevel_name {settings : Settings} {word : Word} {level : LogLevel}
    (named : level ≠ .max) (same : word.chars.map Char.toLower = level.name) :
    settings.setLogLevel word = { settings with logLevel := level } := by
  cases level with
  | max => exact absurd rfl named
  | _ =>
      simp only [Settings.setLogLevel, strcasecmp, same]
      rfl

theorem setLogLevel_number {settings : Settings} {word : Word} {level : LogLevel}
    (named : level ≠ .max) (same : word.chars = Nat.toDigits 10 level.toNat) :
    settings.setLogLevel word = { settings with logLevel := level } := by
  have value := @strtol_toDigits level.toNat
  cases level with
  | max => exact absurd rfl named
  | _ =>
      simp only [Settings.setLogLevel, strcasecmp, same, value (by decide)]
      rfl

theorem setStatsInterval_number {settings : Settings} {word : Word} {seconds : Nat}
    (small : (seconds : Int) < intMax) (same : word.chars = Nat.toDigits 10 seconds) :
    settings.setStatsInterval word = { settings with statsInterval := seconds } := by
  have fits : intMax ≤ longMax := by decide
  have value := strtol_toDigits (le_of_lt (lt_of_lt_of_le small fits))
  simp only [Settings.setStatsInterval, same, value]
  exact if_pos ⟨Int.natCast_nonneg seconds, small⟩

/-! ## Command lines -/

/-- The words of one setting do what it says, whatever comes behind them. -/
theorem Written.parse {words : List Word} {setting : Option Setting}
    (written : Written words setting) (settings : Settings) (rest : List Word) :
    parseArguments settings (words ++ rest) =
      parseArguments (setting.elim settings settings.apply) rest := by
  cases written with
  | logFile option | statsOutputFile option =>
      simp [parseArguments, argumentOption_iff.mpr option, Settings.apply]
  | levelName option named same =>
      simp [parseArguments, argumentOption_iff.mpr option, Settings.apply,
        setLogLevel_name named same]
  | levelNumber option named same =>
      simp [parseArguments, argumentOption_iff.mpr option, Settings.apply,
        setLogLevel_number named same]
  | statsInterval option small same =>
      simp [parseArguments, argumentOption_iff.mpr option, Settings.apply,
        setStatsInterval_number small same]
  | statsEnablePeriodicOutput option | other option =>
      simp [parseArguments, argumentOption_iff.mpr option, Settings.apply]

/-- The words of a list of settings, with other words in front of, between and behind them. -/
theorem parseArguments_written {pieces : List (List Word × Option Setting)}
    (written : ∀ piece ∈ pieces, Written piece.1 piece.2) (settings : Settings)
    (rest : List Word) :
    parseArguments settings (pieces.flatMap Prod.fst ++ rest) =
      parseArguments ((pieces.filterMap Prod.snd).foldl Settings.apply settings) rest := by
  induction pieces generalizing settings with
  | nil => rfl
  | cons piece pieces ih =>
      obtain ⟨words, setting⟩ := piece
      have first : Written words setting := written _ List.mem_cons_self
      have later := ih fun other member => written other (List.mem_cons_of_mem _ member)
      rw [List.flatMap_cons, List.append_assoc, first.parse, later]
      cases setting <;> rfl

/-! ## Any command line -/

/-- The level is one, the interval is an `int`, and the files are words of the command line. -/
structure Settings.Valid (words : List Word) (settings : Settings) : Prop where
  logLevel : settings.logLevel ≠ .max
  statsInterval : 0 ≤ settings.statsInterval ∧ settings.statsInterval < intMax
  logFile : ∀ name, settings.logFile = some name → name ∈ words
  statsOutputFile : ∀ name, settings.statsOutputFile = some name → name ∈ words

namespace Settings.Valid

variable {words : List Word} {settings : Settings}

theorem default : defaultSettings.Valid words where
  logLevel := by decide
  statsInterval := by decide
  logFile _ none := nomatch none
  statsOutputFile _ none := nomatch none

theorem logLevelOf_ne_max : ∀ n < 5, logLevelOf n ≠ .max := by decide

theorem setLogLevel (valid : settings.Valid words) (levelStr : Word) :
    (settings.setLogLevel levelStr).Valid words := by
  have known : ∀ value : Int, value < LogLevel.max.toNat ∧ value ≥ 0 →
      logLevelOf value.toNat ≠ .max := by
    rintro value ⟨small, nonneg⟩
    exact logLevelOf_ne_max _ ((Int.toNat_lt nonneg).mpr small)
  unfold Settings.setLogLevel
  simp only
  split_ifs
  all_goals
    first
    | exact valid
    | exact { valid with logLevel := by intro same; cases same }
    | exact { valid with logLevel := known _ (by assumption) }

theorem setStatsInterval (valid : settings.Valid words) (interval : Word) :
    (settings.setStatsInterval interval).Valid words := by
  unfold Settings.setStatsInterval
  simp only
  split_ifs with inside
  · exact { valid with statsInterval := inside }
  · exact valid

end Settings.Valid

/-- What the loop leaves of valid settings, whatever words are left. -/
theorem Settings.Valid.parse {all words : List Word} {settings : Settings}
    (valid : settings.Valid all) (inside : words ⊆ all) :
    ∃ parsed, parseArguments settings words = some parsed ∧
      ∀ after, parsed = .settings after → after.Valid all := by
  fun_induction parseArguments settings words with
  | case1 =>
      refine ⟨_, rfl, fun after same => ?_⟩
      cases same
      exact valid
  | case2 _ word _ unread =>
      obtain ⟨option, found⟩ := argumentOption_some word
      rw [unread] at found
      cases found
  | case3 => exact ⟨_, rfl, fun _ same => nomatch same⟩
  | case4 _ _ _ _ ih =>
      exact ih { valid with } (List.subset_of_cons_subset inside)
  | case5 _ _ operand _ _ ih =>
      have member : operand ∈ all := inside (by simp)
      refine ih { valid with logFile := ?_ }
        (List.subset_of_cons_subset (List.subset_of_cons_subset inside))
      rintro name ⟨⟩
      exact member
  | case6 _ _ operand _ _ ih =>
      exact ih (valid.setLogLevel operand)
        (List.subset_of_cons_subset (List.subset_of_cons_subset inside))
  | case7 _ _ operand _ _ ih =>
      have member : operand ∈ all := inside (by simp)
      refine ih { valid with statsOutputFile := ?_ }
        (List.subset_of_cons_subset (List.subset_of_cons_subset inside))
      rintro name ⟨⟩
      exact member
  | case8 _ _ operand _ _ ih =>
      exact ih (valid.setStatsInterval operand)
        (List.subset_of_cons_subset (List.subset_of_cons_subset inside))
  | case9 _ _ _ _ _ _ _ _ _ _ ih => exact ih valid (List.subset_of_cons_subset inside)

/-- Every command line is read without a read behind the end of a word. If the process goes on,
the level is one of the five, the interval is an `int` that is not negative, and the files are
words of the command line. -/
theorem parseArguments_valid (words : List Word) :
    ∃ parsed, parseArguments defaultSettings words = some parsed ∧
      ∀ settings, parsed = .settings settings → settings.Valid words :=
  Settings.Valid.default.parse (List.Subset.refl words)

/-- A command line that writes settings, with words between them that ask for nothing, leaves
those settings, of two for the same variable the last. An option whose operand is missing at the
end changes nothing, and with `-Ah` at the end the process ends, whatever comes behind it. -/
theorem parseArguments_settings {pieces : List (List Word × Option Setting)}
    (written : ∀ piece ∈ pieces, Written piece.1 piece.2) :
    let settings := (pieces.filterMap Prod.snd).foldl Settings.apply defaultSettings
    parseArguments defaultSettings (pieces.flatMap Prod.fst) = some (.settings settings) ∧
      (∀ last : Word, ¬ last.Is .help → ¬ last.Is .statsEnablePeriodicOutput →
        parseArguments defaultSettings (pieces.flatMap Prod.fst ++ [last]) =
          some (.settings settings)) ∧
      ∀ (help : Word) (rest : List Word), help.Is .help →
        parseArguments defaultSettings (pieces.flatMap Prod.fst ++ help :: rest) =
          some .usage := by
  intro settings
  refine ⟨?_, fun last unasked unset => ?_, fun help rest is => ?_⟩
  · have all := parseArguments_written written defaultSettings []
    rw [List.append_nil] at all
    exact all
  · rw [parseArguments_written written]
    obtain ⟨option, found⟩ := argumentOption_some last
    have is := argumentOption_iff.mp found
    cases option with
    | help => exact absurd is unasked
    | statsEnablePeriodicOutput => exact absurd is unset
    | _ => simp [parseArguments, found, settings]
  · rw [parseArguments_written written]
    simp [parseArguments, argumentOption_iff.mpr is]

/-- A file whose name looks like an option, and a level that is set twice. -/
theorem parseArguments_settings_twice :
    let word (text : String) (unterminated : nul ∉ text.toList) : Word :=
      ⟨text.toList, unterminated⟩
    parseArguments defaultSettings
        [word "-Ll" (by decide), word "dEbUg" (by decide), word "-Lo" (by decide),
          word "-Ah" (by decide), word "8080" (by decide), word "-Ll" (by decide),
          word "2" (by decide)] =
      some (.settings { defaultSettings with
        logFile := some (word "-Ah" (by decide)), logLevel := .warn }) := by
  intro word
  exact (@parseArguments_settings
    [([word "-Ll" (by decide), word "dEbUg" (by decide)], some (.logLevel .debug)),
      ([word "-Lo" (by decide), word "-Ah" (by decide)], some (.logFile (word "-Ah" (by decide)))),
      ([word "8080" (by decide)], none),
      ([word "-Ll" (by decide), word "2" (by decide)], some (.logLevel .warn))] (by
    have level := argumentOption_is (show argumentOption (word "-Ll" (by decide)) =
      some .logLevel by decide)
    have file := argumentOption_is (show argumentOption (word "-Lo" (by decide)) =
      some .logFile by decide)
    have port := argumentOption_is (show argumentOption (word "8080" (by decide)) =
      some .other by decide)
    simp only [List.mem_cons, List.not_mem_nil, or_false, forall_eq_or_imp, forall_eq]
    exact ⟨.levelName level (by decide) (by decide), .logFile file, .other port,
      .levelNumber level (by decide) (by decide)⟩)).1

end Aio4c
