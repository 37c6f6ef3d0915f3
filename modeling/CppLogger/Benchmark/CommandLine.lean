import CppLogger.Benchmark.Harness
import Mathlib.Data.List.TakeWhile

/-!
# The command line of the benchmark

An argument is a flag, or an option that takes the next argument as its value. Numbers are
decimal and fill their argument; an option that is given again replaces what it has set,
except for `--profile`, which adds to a list. The members of the options that divide
something or must not be zero carry the proof that they are positive.
-/

namespace CppLogger

inductive FlushMode
  | FinalDrain
  | Periodic
  deriving DecidableEq, Repr

/-- All members of the harness's options. -/
structure HarnessOptions extends CommonOptions where
  warmupRuns : ℕ := 1
  measuredRuns : ℕ := 10
  flushMode : FlushMode := .FinalDrain
  keepLogs : Bool := false
  selectedProfiles : List Text := []
  threadCount_pos : 0 < threadCount
  payloadSize_pos : 0 < payloadSize
  measuredRuns_pos : 0 < measuredRuns
  flushInterval_pos : 0 < flushIntervalMilliseconds

/-- The options of `cpp_logger_benchmark`. -/
structure BenchmarkOptions where
  common : HarnessOptions
  queueCapacityPerProducer : ℕ := 2048
  writeBatchSize : ℕ := 256
  queueCapacityPerProducer_pos : 0 < queueCapacityPerProducer
  writeBatchSize_pos : 0 < writeBatchSize

theorem defaultMessages_pos : 0 < 250000 := by decide

/-- The options that hold before the command line is read. -/
def BenchmarkOptions.initial : BenchmarkOptions where
  common :=
    { messagesPerThread_pos := defaultMessages_pos
      threadCount_pos := Nat.zero_lt_succ 3
      payloadSize_pos := Nat.zero_lt_succ 127
      measuredRuns_pos := Nat.zero_lt_succ 9
      flushInterval_pos := Nat.zero_lt_succ 999 }
  queueCapacityPerProducer_pos := Nat.zero_lt_succ 2047
  writeBatchSize_pos := Nat.zero_lt_succ 255

/-! ## Numbers -/

/-- How `std::from_chars` fails. -/
inductive FromCharsError
  | invalid_argument
  | result_out_of_range
  deriving DecidableEq, Repr

/-- `std::from_chars` for an `unsigned long long`: the number that the digits in front make, and
what follows them. -/
def from_chars (text : Text) : Except FromCharsError ℕ × Text :=
  let digits := text.takeWhile Char.isDigit
  let parsed := Nat.ofDigitChars 10 digits 0
  if digits = [] then (.error .invalid_argument, text)
  else if parsed < wordBound then (.ok parsed, text.dropWhile Char.isDigit)
  else (.error .result_out_of_range, text.dropWhile Char.isDigit)

def invalidValue (value option : Text) : HarnessError :=
  .invalid_argument ("invalid value for ".toList ++ option ++ ": ".toList ++ value)

def parseSize (value option : Text) (allowZero : Bool) : Except HarnessError ℕ :=
  match from_chars value with
  | (.error _, _) => .error (invalidValue value option)
  | (.ok parsed, rest) =>
    if rest ≠ [] ∨ (allowZero = false ∧ parsed = 0) ∨ parsed > wordBound - 1 then
      .error (invalidValue value option)
    else .ok parsed

theorem parseSize_pos {value option : Text} {n : ℕ} (h : parseSize value option false = .ok n) :
    0 < n := by
  unfold parseSize at h
  split at h
  · cases h
  · split_ifs at h with hinvalid
    cases h
    apply Nat.pos_of_ne_zero
    intro hzero
    exact hinvalid (.inr (.inl ⟨rfl, hzero⟩))

def parsePositiveSize (value option : Text) : Except HarnessError { n : ℕ // 0 < n } :=
  match h : parseSize value option false with
  | .ok n => .ok ⟨n, parseSize_pos h⟩
  | .error e => .error e

def parseNonNegativeSize (value option : Text) : Except HarnessError ℕ :=
  parseSize value option true

/-! ## Options -/

def flushModeName : FlushMode → Text
  | .FinalDrain => "final-drain".toList
  | .Periodic => "periodic".toList

def parseFlushMode (value : Text) : Except HarnessError FlushMode :=
  if value = "final-drain".toList then .ok .FinalDrain
  else if value = "periodic".toList then .ok .Periodic
  else .error (.invalid_argument "--flush-mode must be final-drain or periodic".toList)

/-- `none` when the option is not one of the harness. -/
def parseCommonValueOption (options : HarnessOptions) (argument value : Text) :
    Except HarnessError (Option HarnessOptions) := do
  if argument = "--threads".toList then
    let n ← parsePositiveSize value argument
    return some { options with threadCount := n.1, threadCount_pos := n.2 }
  else if argument = "--messages".toList then
    let n ← parsePositiveSize value argument
    return some { options with messagesPerThread := n.1, messagesPerThread_pos := n.2 }
  else if argument = "--payload".toList then
    let n ← parsePositiveSize value argument
    return some { options with payloadSize := n.1, payloadSize_pos := n.2 }
  else if argument = "--warmups".toList then
    let n ← parseNonNegativeSize value argument
    return some { options with warmupRuns := n }
  else if argument = "--runs".toList then
    let n ← parsePositiveSize value argument
    return some { options with measuredRuns := n.1, measuredRuns_pos := n.2 }
  else if argument = "--flush-mode".toList then
    let mode ← parseFlushMode value
    return some { options with flushMode := mode }
  else if argument = "--flush-interval-ms".toList then
    let n ← parsePositiveSize value argument
    return some { options with flushIntervalMilliseconds := n.1, flushInterval_pos := n.2 }
  else if argument = "--output".toList then return some { options with outputDirectory := value }
  else if argument = "--profile".toList then
    return some { options with selectedProfiles := options.selectedProfiles ++ [value] }
  else return none

/-- One option with its value. -/
def parseValueOption (options : BenchmarkOptions) (argument value : Text) :
    Except HarnessError BenchmarkOptions := do
  match ← parseCommonValueOption options.common argument value with
  | some common => return { options with common }
  | none =>
    if argument = "--queue-per-thread".toList then
      let n ← parsePositiveSize value argument
      return { options with
        queueCapacityPerProducer := n.1
        queueCapacityPerProducer_pos := n.2 }
    else if argument = "--batch-size".toList then
      let n ← parsePositiveSize value argument
      return { options with writeBatchSize := n.1, writeBatchSize_pos := n.2 }
    else throw (.invalid_argument ("unknown option: ".toList ++ argument))

/-- The loop over the arguments. `none` when it meets `--help`, where the program prints its
usage and exits. -/
def parseArguments :
    BenchmarkOptions → List Text → Except HarnessError (Option BenchmarkOptions)
  | options, [] => .ok (some options)
  | options, argument :: rest =>
    if argument = "--help".toList then .ok none
    else if argument = "--keep-logs".toList then
      parseArguments { options with common.keepLogs := true } rest
    else
      match rest with
      | [] => .error (.invalid_argument ("missing value for ".toList ++ argument))
      | value :: rest =>
        match parseValueOption options argument value with
        | .error e => .error e
        | .ok options => parseArguments options rest

/-- `args` are the arguments behind the name of the program. -/
def parseOptions (args : List Text) : Except HarnessError (Option BenchmarkOptions) := do
  match ← parseArguments .initial args with
  | none => return none
  | some options =>
    validateCommonOptions options.common.toCommonOptions
    if options.common.threadCount > (wordBound - 1) / options.queueCapacityPerProducer then
      throw (.invalid_argument "threads multiplied by queue capacity is too large".toList)
    return some options

/-! ## What a command line says -/

/-- The options whose value is a number. -/
inductive NumberOption
  | threads
  | messages
  | payload
  | warmups
  | runs
  | flushInterval
  | queuePerThread
  | batchSize
  deriving DecidableEq, Repr

namespace NumberOption

def name : NumberOption → Text
  | threads => "--threads".toList
  | messages => "--messages".toList
  | payload => "--payload".toList
  | warmups => "--warmups".toList
  | runs => "--runs".toList
  | flushInterval => "--flush-interval-ms".toList
  | queuePerThread => "--queue-per-thread".toList
  | batchSize => "--batch-size".toList

/-- The least number that the option takes. -/
def least : NumberOption → ℕ
  | warmups => 0
  | _ => 1

def get : NumberOption → BenchmarkOptions → ℕ
  | threads, options => options.common.threadCount
  | messages, options => options.common.messagesPerThread
  | payload, options => options.common.payloadSize
  | warmups, options => options.common.warmupRuns
  | runs, options => options.common.measuredRuns
  | flushInterval, options => options.common.flushIntervalMilliseconds
  | queuePerThread, options => options.queueCapacityPerProducer
  | batchSize, options => options.writeBatchSize

def set : (option : NumberOption) → (n : ℕ) → option.least ≤ n → BenchmarkOptions →
    BenchmarkOptions
  | threads, n, h, options =>
    { options with common.threadCount := n, common.threadCount_pos := h }
  | messages, n, h, options =>
    { options with common.messagesPerThread := n, common.messagesPerThread_pos := h }
  | payload, n, h, options =>
    { options with common.payloadSize := n, common.payloadSize_pos := h }
  | warmups, n, _, options => { options with common.warmupRuns := n }
  | runs, n, h, options =>
    { options with common.measuredRuns := n, common.measuredRuns_pos := h }
  | flushInterval, n, h, options =>
    { options with common.flushIntervalMilliseconds := n, common.flushInterval_pos := h }
  | queuePerThread, n, h, options =>
    { options with queueCapacityPerProducer := n, queueCapacityPerProducer_pos := h }
  | batchSize, n, h, options => { options with writeBatchSize := n, writeBatchSize_pos := h }

end NumberOption

/-- What one option or flag of the command line sets. -/
inductive Setting
  | number (option : NumberOption) (n : ℕ) (h : option.least ≤ n)
  | flushMode (mode : FlushMode)
  | output (path : Text)
  | profile (id : Text)
  | keepLogs

def Setting.apply : Setting → BenchmarkOptions → BenchmarkOptions
  | number option n h, options => option.set n h options
  | flushMode mode, options => { options with common.flushMode := mode }
  | output path, options => { options with common.outputDirectory := path }
  | profile id, options =>
    { options with common.selectedProfiles := options.common.selectedProfiles ++ [id] }
  | keepLogs, options => { options with common.keepLogs := true }

def applyAll (settings : List Setting) (options : BenchmarkOptions) : BenchmarkOptions :=
  settings.foldl (fun options setting => setting.apply options) options

/-- Digits, with any number of zeros in front, that make a number of the machine. -/
structure Numeral (text : Text) (n : ℕ) : Prop where
  nonempty : text ≠ []
  digits : ∀ c ∈ text, c.isDigit = true
  value : Nat.ofDigitChars 10 text 0 = n
  fits : n < wordBound

/-- An option and its value that make a setting. -/
inductive Setting.Given : Setting → Text → Text → Prop
  | number (option : NumberOption) {value : Text} {n : ℕ} (h : option.least ≤ n)
      (hn : Numeral value n) : Given (.number option n h) option.name value
  | flushMode (mode : FlushMode) :
      Given (.flushMode mode) "--flush-mode".toList (flushModeName mode)
  | output (path : Text) : Given (.output path) "--output".toList path
  | profile (id : Text) : Given (.profile id) "--profile".toList id

/-- The arguments that say some settings. -/
inductive Says : List Setting → List Text → Prop
  | nil : Says [] []
  | keepLogs {settings : List Setting} {rest : List Text} (h : Says settings rest) :
      Says (.keepLogs :: settings) ("--keep-logs".toList :: rest)
  | option {setting : Setting} {settings : List Setting} {argument value : Text}
      {rest : List Text} (hgiven : setting.Given argument value) (h : Says settings rest) :
      Says (setting :: settings) (argument :: value :: rest)

/-- The options of the harness. -/
def commonNames : List Text :=
  ["--threads".toList, "--messages".toList, "--payload".toList, "--warmups".toList,
    "--runs".toList, "--flush-mode".toList, "--flush-interval-ms".toList, "--output".toList,
    "--profile".toList]

/-- The options of the benchmark itself. -/
def ownNames : List Text := ["--queue-per-thread".toList, "--batch-size".toList]

/-- The argument cannot be read, with what follows it, for a reason that the error tells. -/
inductive Refused : Text → List Text → HarnessError → Prop
  | missing {argument : Text} (hhelp : argument ≠ "--help".toList)
      (hkeep : argument ≠ "--keep-logs".toList) :
      Refused argument [] (.invalid_argument ("missing value for ".toList ++ argument))
  | number (option : NumberOption) {value : Text} {rest : List Text}
      (h : ∀ n, Numeral value n → n < option.least) :
      Refused option.name (value :: rest) (invalidValue value option.name)
  | flushMode {value : Text} {rest : List Text} (h : ∀ mode, value ≠ flushModeName mode) :
      Refused "--flush-mode".toList (value :: rest)
        (.invalid_argument "--flush-mode must be final-drain or periodic".toList)
  | unknown {argument value : Text} {rest : List Text} (hhelp : argument ≠ "--help".toList)
      (hkeep : argument ≠ "--keep-logs".toList) (h : argument ∉ commonNames ++ ownNames) :
      Refused argument (value :: rest) (.invalid_argument ("unknown option: ".toList ++ argument))

/-! ### Numbers -/

theorem takeWhile_isDigit {text : Text} (h : ∀ c ∈ text, c.isDigit = true) :
    text.takeWhile Char.isDigit = text ∧ text.dropWhile Char.isDigit = [] :=
  ⟨List.takeWhile_eq_self_iff.mpr h, List.dropWhile_eq_nil_iff.mpr h⟩

/-- A number is read when it is a numeral from end to end. -/
theorem parseSize_ok_iff {value option : Text} {allowZero : Bool} {n : ℕ} :
    parseSize value option allowZero = .ok n ↔
      Numeral value n ∧ (allowZero = false → 0 < n) := by
  unfold parseSize from_chars
  constructor
  · intro h
    by_cases hdigits : value.takeWhile Char.isDigit = []
    · simp only [hdigits, if_true] at h
      cases h
    · by_cases hfits : Nat.ofDigitChars 10 (value.takeWhile Char.isDigit) 0 < wordBound
      · simp only [hdigits, hfits, if_false, if_true] at h
        split_ifs at h with hinvalid
        cases h
        push Not at hinvalid
        obtain ⟨hrest, hzero, -⟩ := hinvalid
        have hall : ∀ c ∈ value, c.isDigit = true := List.dropWhile_eq_nil_iff.mp hrest
        rw [(takeWhile_isDigit hall).1] at hdigits hfits hzero ⊢
        exact ⟨⟨hdigits, hall, rfl, hfits⟩, fun hallow => Nat.pos_of_ne_zero (hzero hallow)⟩
      · simp only [hdigits, hfits, if_false] at h
        cases h
  · rintro ⟨⟨hnonempty, hall, rfl, hfits⟩, hpos⟩
    obtain ⟨htake, hdrop⟩ := takeWhile_isDigit hall
    dsimp only
    rw [htake, hdrop, if_neg hnonempty, if_pos hfits]
    dsimp only
    rw [if_neg]
    rintro (hrest | ⟨hallow, hzero⟩ | hlarge)
    · exact hrest rfl
    · have := hpos hallow
      omega
    · omega

theorem parseSize_error {value option : Text} {allowZero : Bool}
    (h : ∀ n, Numeral value n → allowZero = false ∧ n = 0) :
    parseSize value option allowZero = .error (invalidValue value option) := by
  cases hparse : parseSize value option allowZero with
  | ok n =>
    obtain ⟨hn, hpos⟩ := parseSize_ok_iff.mp hparse
    obtain ⟨hallow, rfl⟩ := h n hn
    exact absurd (hpos hallow) (lt_irrefl 0)
  | error e =>
    unfold parseSize at hparse
    split at hparse
    · exact hparse.symm
    · split_ifs at hparse
      exact hparse.symm

theorem parsePositiveSize_ok {value option : Text} {n : ℕ} (h : 0 < n) (hn : Numeral value n) :
    parsePositiveSize value option = .ok ⟨n, h⟩ := by
  have hparse : parseSize value option false = .ok n := parseSize_ok_iff.mpr ⟨hn, fun _ => h⟩
  unfold parsePositiveSize
  split
  · next m hm =>
    cases hm.symm.trans hparse
    rfl
  · next e he => cases he.symm.trans hparse

theorem parsePositiveSize_error {value option : Text} (h : ∀ n, Numeral value n → n < 1) :
    parsePositiveSize value option = .error (invalidValue value option) := by
  have hparse : parseSize value option false = _ :=
    parseSize_error fun n hn => ⟨rfl, Nat.lt_one_iff.mp (h n hn)⟩
  unfold parsePositiveSize
  split
  · next m hm => cases hm.symm.trans hparse
  · next e he =>
    cases he.symm.trans hparse
    rfl

theorem parseNonNegativeSize_ok {value option : Text} {n : ℕ} (hn : Numeral value n) :
    parseNonNegativeSize value option = .ok n := by
  unfold parseNonNegativeSize
  exact parseSize_ok_iff.mpr ⟨hn, nofun⟩

/-! ### Options -/

/-- The number of the option, as the branch of the option reads it. -/
def NumberOption.parse : (option : NumberOption) → Text →
    Except HarnessError { n : ℕ // option.least ≤ n }
  | .threads, value => parsePositiveSize value "--threads".toList
  | .messages, value => parsePositiveSize value "--messages".toList
  | .payload, value => parsePositiveSize value "--payload".toList
  | .warmups, value =>
    (parseNonNegativeSize value "--warmups".toList).map fun n => ⟨n, Nat.zero_le n⟩
  | .runs, value => parsePositiveSize value "--runs".toList
  | .flushInterval, value => parsePositiveSize value "--flush-interval-ms".toList
  | .queuePerThread, value => parsePositiveSize value "--queue-per-thread".toList
  | .batchSize, value => parsePositiveSize value "--batch-size".toList

theorem NumberOption.parse_ok (option : NumberOption) {value : Text} {n : ℕ}
    (h : option.least ≤ n) (hn : Numeral value n) : option.parse value = .ok ⟨n, h⟩ := by
  cases option with
  | warmups =>
    rw [NumberOption.parse, parseNonNegativeSize_ok hn]
    rfl
  | _ => exact parsePositiveSize_ok h hn

theorem NumberOption.parse_error (option : NumberOption) {value : Text}
    (h : ∀ n, Numeral value n → n < option.least) :
    option.parse value = .error (invalidValue value option.name) := by
  cases option with
  | warmups =>
    have hparse : parseNonNegativeSize value "--warmups".toList = _ :=
      parseSize_error fun n hn => absurd (h n hn) (Nat.not_lt_zero n)
    rw [NumberOption.parse, hparse]
    rfl
  | _ => exact parsePositiveSize_error h

theorem parseCommonValueOption_none (options : HarnessOptions) {argument : Text} (value : Text)
    (h : argument ∉ commonNames) : parseCommonValueOption options argument value = .ok none := by
  have hne : ∀ name ∈ commonNames, argument ≠ name := fun name hname heq => h (heq ▸ hname)
  unfold parseCommonValueOption
  repeat rw [if_neg (hne _ (by simp [commonNames]))]
  rfl

theorem parseValueOption_name (options : BenchmarkOptions) (option : NumberOption) (value : Text) :
    parseValueOption options option.name value =
      (option.parse value).map fun n => option.set n.1 n.2 options := by
  cases option with
  | threads =>
    change parseValueOption options "--threads".toList value =
      (parsePositiveSize value "--threads".toList).map _
    rw [parseValueOption, parseCommonValueOption, if_pos rfl]
    cases parsePositiveSize value "--threads".toList <;> rfl
  | messages =>
    change parseValueOption options "--messages".toList value =
      (parsePositiveSize value "--messages".toList).map _
    rw [parseValueOption, parseCommonValueOption, if_neg (by decide), if_pos rfl]
    cases parsePositiveSize value "--messages".toList <;> rfl
  | payload =>
    change parseValueOption options "--payload".toList value =
      (parsePositiveSize value "--payload".toList).map _
    rw [parseValueOption, parseCommonValueOption, if_neg (by decide), if_neg (by decide),
      if_pos rfl]
    cases parsePositiveSize value "--payload".toList <;> rfl
  | runs =>
    change parseValueOption options "--runs".toList value =
      (parsePositiveSize value "--runs".toList).map _
    rw [parseValueOption, parseCommonValueOption, if_neg (by decide), if_neg (by decide),
      if_neg (by decide), if_neg (by decide), if_pos rfl]
    cases parsePositiveSize value "--runs".toList <;> rfl
  | flushInterval =>
    change parseValueOption options "--flush-interval-ms".toList value =
      (parsePositiveSize value "--flush-interval-ms".toList).map _
    rw [parseValueOption, parseCommonValueOption, if_neg (by decide), if_neg (by decide),
      if_neg (by decide), if_neg (by decide), if_neg (by decide), if_neg (by decide), if_pos rfl]
    cases parsePositiveSize value "--flush-interval-ms".toList <;> rfl
  | warmups =>
    change parseValueOption options "--warmups".toList value =
      ((parseNonNegativeSize value "--warmups".toList).map _).map _
    rw [parseValueOption, parseCommonValueOption, if_neg (by decide), if_neg (by decide),
      if_neg (by decide), if_pos rfl]
    cases parseNonNegativeSize value "--warmups".toList <;> rfl
  | queuePerThread =>
    change parseValueOption options "--queue-per-thread".toList value =
      (parsePositiveSize value "--queue-per-thread".toList).map _
    rw [parseValueOption, parseCommonValueOption_none _ value (by decide)]
    cases parsePositiveSize value "--queue-per-thread".toList <;> rfl
  | batchSize =>
    change parseValueOption options "--batch-size".toList value =
      (parsePositiveSize value "--batch-size".toList).map _
    rw [parseValueOption, parseCommonValueOption_none _ value (by decide)]
    cases parsePositiveSize value "--batch-size".toList <;> rfl

theorem parseValueOption_given (options : BenchmarkOptions) {setting : Setting}
    {argument value : Text} (h : setting.Given argument value) :
    parseValueOption options argument value = .ok (setting.apply options) := by
  cases h with
  | number option h hn =>
    rw [parseValueOption_name, option.parse_ok h hn]
    rfl
  | flushMode mode => cases mode <;> rfl
  | output path => rfl
  | profile id => rfl

theorem parseFlushMode_error {value : Text} (h : ∀ mode, value ≠ flushModeName mode) :
    parseFlushMode value =
      .error (.invalid_argument "--flush-mode must be final-drain or periodic".toList) := by
  unfold parseFlushMode
  exact (if_neg (h .FinalDrain)).trans (if_neg (h .Periodic))

theorem parseValueOption_refused (options : BenchmarkOptions) {argument value : Text}
    {rest : List Text} {e : HarnessError} (h : Refused argument (value :: rest) e) :
    parseValueOption options argument value = .error e := by
  cases h with
  | number option h =>
    rw [parseValueOption_name, option.parse_error h]
    rfl
  | flushMode h =>
    unfold parseValueOption parseCommonValueOption
    rw [if_neg (by decide), if_neg (by decide), if_neg (by decide), if_neg (by decide),
      if_neg (by decide), if_pos rfl, parseFlushMode_error h]
    rfl
  | unknown hhelp hkeep h =>
    have hcommon : argument ∉ commonNames := fun hmem => h (List.mem_append_left _ hmem)
    have hown : ∀ name ∈ ownNames, argument ≠ name := by
      rintro name hname rfl
      exact h (List.mem_append_right _ hname)
    unfold parseValueOption
    rw [parseCommonValueOption_none options.common value hcommon]
    refine (if_neg (hown _ ?_)).trans (if_neg (hown _ ?_))
    · exact List.mem_cons_self
    · exact List.mem_cons_of_mem _ List.mem_cons_self

theorem Setting.Given.not_flag {setting : Setting} {argument value : Text}
    (h : setting.Given argument value) :
    argument ≠ "--help".toList ∧ argument ≠ "--keep-logs".toList := by
  cases h with
  | number option => cases option <;> decide
  | _ => decide

theorem Refused.not_flag {argument : Text} {rest : List Text} {e : HarnessError}
    (h : Refused argument rest e) :
    argument ≠ "--help".toList ∧ argument ≠ "--keep-logs".toList := by
  cases h with
  | missing hhelp hkeep => exact ⟨hhelp, hkeep⟩
  | number option => cases option <;> decide
  | flushMode => decide
  | unknown hhelp hkeep => exact ⟨hhelp, hkeep⟩

/-! ### The loop -/

section Loop

variable (options : BenchmarkOptions) {argument : Text} (value : Text) (rest : List Text)

theorem parseArguments_help : parseArguments options ("--help".toList :: rest) = .ok none := by
  rw [parseArguments.eq_def]
  exact if_pos rfl

theorem parseArguments_keepLogs : parseArguments options ("--keep-logs".toList :: rest) =
    parseArguments (Setting.keepLogs.apply options) rest := by
  rw [parseArguments.eq_def]
  exact (if_neg (by decide)).trans (if_pos rfl)

theorem parseArguments_missing (hhelp : argument ≠ "--help".toList)
    (hkeep : argument ≠ "--keep-logs".toList) : parseArguments options [argument] =
      .error (.invalid_argument ("missing value for ".toList ++ argument)) := by
  rw [parseArguments.eq_def]
  exact (if_neg hhelp).trans (if_neg hkeep)

theorem parseArguments_value (hhelp : argument ≠ "--help".toList)
    (hkeep : argument ≠ "--keep-logs".toList) :
    parseArguments options (argument :: value :: rest) =
      match parseValueOption options argument value with
      | .error e => .error e
      | .ok options => parseArguments options rest := by
  rw [parseArguments.eq_def]
  exact (if_neg hhelp).trans (if_neg hkeep)

end Loop

theorem parseArguments_said {settings : List Setting} {read : List Text}
    (h : Says settings read) (rest : List Text) (options : BenchmarkOptions) :
    parseArguments options (read ++ rest) = parseArguments (applyAll settings options) rest := by
  induction h generalizing options with
  | nil => rfl
  | keepLogs h ih =>
    rw [List.cons_append, parseArguments_keepLogs, ih]
    rfl
  | option hgiven h ih =>
    obtain ⟨hhelp, hkeep⟩ := hgiven.not_flag
    rw [List.cons_append, List.cons_append, parseArguments_value options _ _ hhelp hkeep,
      parseValueOption_given options hgiven]
    exact ih _

theorem parseArguments_refused {argument : Text} {rest : List Text} {e : HarnessError}
    (h : Refused argument rest e) (options : BenchmarkOptions) :
    parseArguments options (argument :: rest) = .error e := by
  obtain ⟨hhelp, hkeep⟩ := h.not_flag
  cases rest with
  | nil =>
    cases h
    exact parseArguments_missing options hhelp hkeep
  | cons value rest =>
    rw [parseArguments_value options value rest hhelp hkeep, parseValueOption_refused options h]

/-- The argument and its value make a setting or are refused. -/
theorem given_or_refused {argument : Text} (hhelp : argument ≠ "--help".toList)
    (hkeep : argument ≠ "--keep-logs".toList) (value : Text) (rest : List Text) :
    (∃ setting : Setting, setting.Given argument value) ∨
      ∃ e, Refused argument (value :: rest) e := by
  have hnumber : ∀ option : NumberOption,
      (∃ setting : Setting, setting.Given option.name value) ∨
        ∃ e, Refused option.name (value :: rest) e := by
    intro option
    by_cases hn : ∃ n, option.least ≤ n ∧ Numeral value n
    · obtain ⟨n, hleast, hn⟩ := hn
      exact .inl ⟨_, .number option hleast hn⟩
    · push Not at hn
      refine .inr ⟨_, .number option fun n hnumeral => ?_⟩
      by_contra hless
      exact hn n (not_lt.mp hless) hnumeral
  by_cases hname : argument ∈ commonNames ++ ownNames
  · simp only [commonNames, ownNames, List.cons_append, List.nil_append, List.mem_cons,
      List.not_mem_nil, or_false] at hname
    rcases hname with rfl | rfl | rfl | rfl | rfl | rfl | rfl | rfl | rfl | rfl | rfl
    · exact hnumber .threads
    · exact hnumber .messages
    · exact hnumber .payload
    · exact hnumber .warmups
    · exact hnumber .runs
    · by_cases hmode : ∃ mode, value = flushModeName mode
      · obtain ⟨mode, rfl⟩ := hmode
        exact .inl ⟨_, .flushMode mode⟩
      · push Not at hmode
        exact .inr ⟨_, .flushMode hmode⟩
    · exact hnumber .flushInterval
    · exact .inl ⟨_, .output value⟩
    · exact .inl ⟨_, .profile value⟩
    · exact hnumber .queuePerThread
    · exact hnumber .batchSize
  · exact .inr ⟨_, .unknown hhelp hkeep hname⟩

/-- What is in front of the first argument that ends the loop. -/
theorem says_or_ends : ∀ args : List Text,
    (∃ settings, Says settings args) ∨
      (∃ settings read rest, Says settings read ∧ args = read ++ "--help".toList :: rest) ∨
      ∃ settings read argument rest e, Says settings read ∧ Refused argument rest e ∧
        args = read ++ argument :: rest
  | [] => .inl ⟨[], .nil⟩
  | argument :: rest => by
    by_cases hhelp : argument = "--help".toList
    · subst hhelp
      exact .inr (.inl ⟨[], [], rest, .nil, rfl⟩)
    by_cases hkeep : argument = "--keep-logs".toList
    · subst hkeep
      obtain ⟨settings, h⟩ | ⟨settings, read, rest', h, rfl⟩ |
        ⟨settings, read, argument, rest', e, h, hrefused, rfl⟩ := says_or_ends rest
      · exact .inl ⟨_, .keepLogs h⟩
      · exact .inr (.inl ⟨_, _, rest', .keepLogs h, rfl⟩)
      · exact .inr (.inr ⟨_, _, argument, rest', e, .keepLogs h, hrefused, rfl⟩)
    cases rest with
    | nil => exact .inr (.inr ⟨[], [], argument, [], _, .nil, .missing hhelp hkeep, rfl⟩)
    | cons value rest =>
      obtain ⟨setting, hgiven⟩ | ⟨e, hrefused⟩ := given_or_refused hhelp hkeep value rest
      · obtain ⟨settings, h⟩ | ⟨settings, read, rest', h, rfl⟩ |
          ⟨settings, read, argument', rest', e, h, hrefused, rfl⟩ := says_or_ends rest
        · exact .inl ⟨_, .option hgiven h⟩
        · exact .inr (.inl ⟨_, _, rest', .option hgiven h, rfl⟩)
        · exact .inr (.inr ⟨_, _, argument', rest', e, .option hgiven h, hrefused, rfl⟩)
      · exact .inr (.inr ⟨[], [], argument, _, e, .nil, hrefused, rfl⟩)

section Outcome

variable {options : BenchmarkOptions} {args : List Text}

theorem parseArguments_of_said {settings : List Setting} (h : Says settings args) :
    parseArguments options args = .ok (some (applyAll settings options)) := by
  have hparse := parseArguments_said h [] options
  rwa [List.append_nil] at hparse

theorem parseArguments_of_help {settings : List Setting} {read rest : List Text}
    (h : Says settings read) :
    parseArguments options (read ++ "--help".toList :: rest) = .ok none := by
  rw [parseArguments_said h, parseArguments_help]

theorem parseArguments_of_refused {settings : List Setting} {read rest : List Text}
    {argument : Text} {e : HarnessError} (h : Says settings read)
    (hrefused : Refused argument rest e) :
    parseArguments options (read ++ argument :: rest) = .error e := by
  rw [parseArguments_said h, parseArguments_refused hrefused]

theorem says_of_parseArguments {result : BenchmarkOptions}
    (h : parseArguments options args = .ok (some result)) :
    ∃ settings, Says settings args ∧ result = applyAll settings options := by
  obtain ⟨settings, hw⟩ | ⟨_, _, _, hw, rfl⟩ | ⟨_, _, _, _, _, hw, hrefused, rfl⟩ :=
    says_or_ends args
  · cases h.symm.trans (parseArguments_of_said hw)
    exact ⟨settings, hw, rfl⟩
  · cases h.symm.trans (parseArguments_of_help hw)
  · cases h.symm.trans (parseArguments_of_refused hw hrefused)

end Outcome

/-- The loop reads exactly the command lines that say settings, and does with the options what
they say. It stops at the first `--help` behind settings, and with the error of the first
argument that is refused. -/
theorem parseArguments_reads (options : BenchmarkOptions) (args : List Text) :
    (∀ result, parseArguments options args = .ok (some result) ↔
        ∃ settings, Says settings args ∧ result = applyAll settings options) ∧
      (parseArguments options args = .ok none ↔
        ∃ settings read rest, Says settings read ∧ args = read ++ "--help".toList :: rest) ∧
      ∀ e, parseArguments options args = .error e ↔
        ∃ settings read argument rest, Says settings read ∧ Refused argument rest e ∧
          args = read ++ argument :: rest := by
  refine ⟨fun result => ⟨says_of_parseArguments, ?_⟩, ⟨fun h => ?_, ?_⟩,
    fun e => ⟨fun h => ?_, ?_⟩⟩
  · rintro ⟨settings, hw, rfl⟩
    exact parseArguments_of_said hw
  · obtain ⟨_, hw⟩ | hends | ⟨_, _, _, _, _, hw, hrefused, rfl⟩ := says_or_ends args
    · cases h.symm.trans (parseArguments_of_said hw)
    · exact hends
    · cases h.symm.trans (parseArguments_of_refused hw hrefused)
  · rintro ⟨_, _, _, hw, rfl⟩
    exact parseArguments_of_help hw
  · obtain ⟨_, hw⟩ | ⟨_, _, _, hw, rfl⟩ |
      ⟨settings, read, argument, rest, e', hw, hrefused, rfl⟩ := says_or_ends args
    · cases h.symm.trans (parseArguments_of_said hw)
    · cases h.symm.trans (parseArguments_of_help hw)
    · cases h.symm.trans (parseArguments_of_refused hw hrefused)
      exact ⟨settings, read, argument, rest, hw, hrefused, rfl⟩
  · rintro ⟨_, _, _, _, hw, hrefused, rfl⟩
    exact parseArguments_of_refused hw hrefused

end CppLogger
