import CppLogger.Benchmark.CommandLine

/-!
# The options of the benchmark

What the options are after the command line has been read, and which options a command line
can make: the checks at the end of `parseOptions` leave those whose products are numbers of
the machine.
-/

namespace CppLogger

/-! ## The last setting holds -/

/-- The number that the setting gives to the option. -/
def Setting.numberFor (option : NumberOption) : Setting → Option ℕ
  | number option' n _ => if option' = option then some n else none
  | _ => none

def Setting.profileOf : Setting → Option Text
  | profile id => some id
  | _ => none

theorem get_apply (option : NumberOption) (setting : Setting) (options : BenchmarkOptions) :
    option.get (setting.apply options) = (setting.numberFor option).getD (option.get options) := by
  cases setting with
  | number option' n h => cases option' <;> cases option <;> rfl
  | _ => cases option <;> rfl

theorem applyAll_append (settings more : List Setting) (options : BenchmarkOptions) :
    applyAll (settings ++ more) options = applyAll more (applyAll settings options) :=
  List.foldl_append

/-- The last one of several settings of an option holds. -/
theorem get_applyAll (option : NumberOption) (settings : List Setting)
    (options : BenchmarkOptions) :
    option.get (applyAll settings options) =
      (settings.filterMap (Setting.numberFor option)).getLast?.getD (option.get options) := by
  induction settings using List.reverseRecOn with
  | nil => rfl
  | append_singleton settings setting ih =>
    rw [applyAll_append, List.filterMap_append]
    change option.get (setting.apply _) = _
    rw [get_apply, ih]
    cases hn : setting.numberFor option with
    | none => simp [hn]
    | some n => simp [hn]

theorem profiles_applyAll (settings : List Setting) (options : BenchmarkOptions) :
    (applyAll settings options).common.selectedProfiles =
      options.common.selectedProfiles ++ settings.filterMap Setting.profileOf := by
  induction settings generalizing options with
  | nil => simp [applyAll]
  | cons setting settings ih =>
    change (applyAll settings (setting.apply options)).common.selectedProfiles = _
    rw [ih, List.filterMap_cons]
    cases setting with
    | number option n h => cases option <;> rfl
    | profile id => simp [Setting.apply, Setting.profileOf]
    | _ => rfl

/-- What `parseOptions` promises of the options it returns. -/
structure BenchmarkOptions.Accepted (options : BenchmarkOptions) : Prop where
  numbers : ∀ option : NumberOption, option.get options < wordBound
  output : options.common.outputDirectory ≠ []
  messages : options.common.threadCount * options.common.messagesPerThread < wordBound
  interval : options.common.flushIntervalMilliseconds ≤ millisecondsMax
  capacity : options.common.threadCount * options.queueCapacityPerProducer < wordBound

theorem mul_lt_wordBound_iff {m n : ℕ} (h : 0 < n) :
    m * n < wordBound ↔ m ≤ (wordBound - 1) / n := by
  rw [Nat.le_div_iff_mul_le h]
  have hpos : 0 < wordBound := by decide
  omega

theorem validateCommonOptions_ok_iff (options : CommonOptions) :
    validateCommonOptions options = .ok () ↔
      options.outputDirectory ≠ [] ∧ options.threadCount * options.messagesPerThread < wordBound ∧
        options.flushIntervalMilliseconds ≤ millisecondsMax := by
  rw [mul_lt_wordBound_iff options.messagesPerThread_pos]
  unfold validateCommonOptions checkedToUint64
  by_cases houtput : options.outputDirectory = []
  · simp [houtput, throw, throwThe, MonadExceptOf.throw, bind, Except.bind]
  by_cases hmessages : options.threadCount > (wordBound - 1) / options.messagesPerThread
  · simp [houtput, hmessages, throw, throwThe, MonadExceptOf.throw, bind, Except.bind]
  have hless : options.threadCount * options.messagesPerThread < wordBound :=
    (mul_lt_wordBound_iff options.messagesPerThread_pos).mpr (not_lt.mp hmessages)
  have hfits : ¬options.threadCount * options.messagesPerThread > wordBound - 1 := by omega
  by_cases hinterval : options.flushIntervalMilliseconds > millisecondsMax
  · simp [houtput, hmessages, hfits, hinterval, throw, throwThe, MonadExceptOf.throw, bind,
      Except.bind]
  · simp [houtput, hmessages, hfits, hinterval, not_lt.mp hmessages, not_lt.mp hinterval, bind,
      Except.bind, pure, Except.pure]

theorem parseOptions_ok_iff {args : List Text} {options : BenchmarkOptions} :
    parseOptions args = .ok (some options) ↔
      parseArguments .initial args = .ok (some options) ∧
        validateCommonOptions options.common.toCommonOptions = .ok () ∧
        options.common.threadCount * options.queueCapacityPerProducer < wordBound := by
  unfold parseOptions
  cases hparse : parseArguments .initial args with
  | error e => simp [bind, Except.bind]
  | ok parsed =>
    cases parsed with
    | none => simp [bind, Except.bind, pure, Except.pure]
    | some result =>
      cases hvalid : validateCommonOptions result.common.toCommonOptions with
      | error e =>
        have hne : ∀ {x : BenchmarkOptions}, x = options →
            validateCommonOptions x.common.toCommonOptions = .error e →
            validateCommonOptions options.common.toCommonOptions ≠ .ok () := by
          rintro _ rfl herror hok
          cases hok.symm.trans herror
        simp only [bind, Except.bind, hvalid]
        constructor
        · exact nofun
        · rintro ⟨heq, hok, -⟩
          cases heq
          exact absurd hok (hne rfl hvalid)
      | ok u =>
        simp only [bind, Except.bind, hvalid]
        by_cases hcapacity :
            result.common.threadCount > (wordBound - 1) / result.queueCapacityPerProducer
        · rw [if_pos hcapacity]
          constructor
          · exact nofun
          · rintro ⟨heq, -, hless⟩
            cases heq
            have hle := (mul_lt_wordBound_iff options.queueCapacityPerProducer_pos).mp hless
            omega
        · rw [if_neg hcapacity]
          constructor
          · intro heq
            cases heq
            exact ⟨rfl, hvalid, (mul_lt_wordBound_iff options.queueCapacityPerProducer_pos).mpr
              (not_lt.mp hcapacity)⟩
          · rintro ⟨heq, -, -⟩
            cases heq
            rfl

theorem Says.numeral {settings : List Setting} {args : List Text} (h : Says settings args)
    (option : NumberOption) : ∀ n ∈ settings.filterMap (Setting.numberFor option),
      n < wordBound := by
  induction h with
  | nil => exact nofun
  | keepLogs h ih => exact ih
  | option hgiven h ih =>
    intro n hn
    rw [List.mem_filterMap] at hn
    obtain ⟨setting, hmem, hnumber⟩ := hn
    rcases List.mem_cons.mp hmem with rfl | hmem
    · cases hgiven with
      | number option' hleast hnumeral =>
        by_cases hoption : option' = option
        · cases (if_pos hoption).symm.trans hnumber
          exact hnumeral.fits
        · cases (if_neg hoption).symm.trans hnumber
      | _ => cases hnumber
    · exact ih n (List.mem_filterMap.mpr ⟨setting, hmem, hnumber⟩)

theorem numbers_of_said {settings : List Setting} {args : List Text}
    (h : Says settings args) (option : NumberOption) :
    option.get (applyAll settings .initial) < wordBound := by
  rw [get_applyAll]
  cases hlast : (settings.filterMap (Setting.numberFor option)).getLast? with
  | none => cases option <;> decide
  | some n => exact h.numeral option n (List.mem_of_getLast? hlast)

/-! ## Options as a command line -/

def Setting.render : Setting → List Text
  | number option n _ => [option.name, decimal n]
  | flushMode mode => ["--flush-mode".toList, flushModeName mode]
  | output path => ["--output".toList, path]
  | profile id => ["--profile".toList, id]
  | keepLogs => ["--keep-logs".toList]

/-- The value of an option is one that it can be given. -/
theorem BenchmarkOptions.least_le (options : BenchmarkOptions) (option : NumberOption) :
    option.least ≤ option.get options := by
  cases option with
  | threads => exact options.common.threadCount_pos
  | messages => exact options.common.messagesPerThread_pos
  | payload => exact options.common.payloadSize_pos
  | warmups => exact Nat.zero_le _
  | runs => exact options.common.measuredRuns_pos
  | flushInterval => exact options.common.flushInterval_pos
  | queuePerThread => exact options.queueCapacityPerProducer_pos
  | batchSize => exact options.writeBatchSize_pos

/-- Every option, with the value that it has. -/
def BenchmarkOptions.settings (options : BenchmarkOptions) : List Setting :=
  [.number .threads options.common.threadCount (options.least_le .threads),
    .number .messages options.common.messagesPerThread (options.least_le .messages),
    .number .payload options.common.payloadSize (options.least_le .payload),
    .number .warmups options.common.warmupRuns (options.least_le .warmups),
    .number .runs options.common.measuredRuns (options.least_le .runs),
    .flushMode options.common.flushMode,
    .number .flushInterval options.common.flushIntervalMilliseconds
      (options.least_le .flushInterval),
    .output options.common.outputDirectory,
    .number .queuePerThread options.queueCapacityPerProducer (options.least_le .queuePerThread),
    .number .batchSize options.writeBatchSize (options.least_le .batchSize)] ++
    (if options.common.keepLogs then [.keepLogs] else []) ++
    options.common.selectedProfiles.map .profile

theorem numeral_decimal {n : ℕ} (h : n < wordBound) : Numeral (decimal n) n where
  nonempty := by
    rw [decimal_natCast]
    exact Nat.toDigits_ne_nil
  digits c hc := by
    rw [decimal_natCast] at hc
    exact Nat.isDigit_of_mem_toDigits (by decide) (by decide) hc
  value := by rw [decimal_natCast, Nat.ofDigitChars_ten_toDigits]
  fits := h

/-- The numbers of the setting are numbers of the machine. -/
def Setting.Fits : Setting → Prop
  | number _ n _ => n < wordBound
  | _ => True

theorem says_render {settings : List Setting} (h : ∀ setting ∈ settings, setting.Fits) :
    Says settings (settings.flatMap Setting.render) := by
  induction settings with
  | nil => exact .nil
  | cons setting settings ih =>
    have hfirst := h setting List.mem_cons_self
    have hrest := ih fun setting hmem => h setting (List.mem_cons_of_mem _ hmem)
    cases setting with
    | number option n hn => exact .option (.number option hn (numeral_decimal hfirst)) hrest
    | flushMode mode => exact .option (.flushMode mode) hrest
    | output path => exact .option (.output path) hrest
    | profile id => exact .option (.profile id) hrest
    | keepLogs => exact .keepLogs hrest

theorem applyAll_profiles (ids : List Text) (options : BenchmarkOptions) :
    applyAll (ids.map .profile) options =
      { options with common.selectedProfiles := options.common.selectedProfiles ++ ids } := by
  induction ids generalizing options with
  | nil =>
    rw [List.append_nil]
    rfl
  | cons id ids ih =>
    change applyAll (ids.map .profile) (Setting.apply (.profile id) options) = _
    rw [ih]
    simp [Setting.apply]

/-- The settings of some options make them again. -/
theorem applyAll_settings (options : BenchmarkOptions) :
    applyAll options.settings .initial = options := by
  obtain ⟨⟨common, warmupRuns, measuredRuns, flushMode, keepLogs, selectedProfiles, _, _, _, _⟩,
    queueCapacityPerProducer, writeBatchSize, _, _⟩ := options
  unfold BenchmarkOptions.settings
  rw [applyAll_append, applyAll_append, applyAll_profiles]
  cases keepLogs <;> rfl

theorem fits_settings {options : BenchmarkOptions}
    (h : ∀ option : NumberOption, option.get options < wordBound) :
    ∀ setting ∈ options.settings, setting.Fits := by
  unfold BenchmarkOptions.settings
  simp only [List.forall_mem_append, List.forall_mem_cons]
  refine ⟨⟨⟨h .threads, h .messages, h .payload, h .warmups, h .runs, trivial, h .flushInterval,
    trivial, h .queuePerThread, h .batchSize, nofun⟩, ?_⟩, ?_⟩
  · intro setting hmem
    split_ifs at hmem
    · cases List.mem_singleton.mp hmem
      trivial
    · cases hmem
  · intro setting hmem
    obtain ⟨id, -, rfl⟩ := List.mem_map.mp hmem
    trivial

/-- The options that come out of a command line have been checked. -/
theorem accepted_of_parseOptions {args : List Text} {options : BenchmarkOptions}
    (h : parseOptions args = .ok (some options)) : options.Accepted := by
  obtain ⟨hparse, hvalid, hcapacity⟩ := parseOptions_ok_iff.mp h
  obtain ⟨houtput, hmessages, hinterval⟩ := (validateCommonOptions_ok_iff _).mp hvalid
  obtain ⟨settings, hsays, rfl⟩ := says_of_parseArguments hparse
  exact ⟨numbers_of_said hsays, houtput, hmessages, hinterval, hcapacity⟩

/-- Options that have been checked come out of their own command line. -/
theorem parseOptions_settings {options : BenchmarkOptions} (h : options.Accepted) :
    parseOptions (options.settings.flatMap Setting.render) = .ok (some options) := by
  refine parseOptions_ok_iff.mpr ⟨?_, ?_, h.capacity⟩
  · have hparse := parseArguments_said (says_render (fits_settings h.numbers)) [] .initial
    rw [List.append_nil, applyAll_settings] at hparse
    exact hparse
  · exact (validateCommonOptions_ok_iff _).mpr ⟨h.output, h.messages, h.interval⟩

/-- The options that the program goes on with are sound: no product of them overflows, and each
is what the last setting of it says. All sound options can be asked for, and are written again
as a command line that is read as the same options. -/
theorem parseOptions_accepts (options : BenchmarkOptions) :
    (∀ args, parseOptions args = .ok (some options) →
      options.Accepted ∧ ∃ settings, Says settings args ∧
        (∀ option : NumberOption, option.get options =
          (settings.filterMap (Setting.numberFor option)).getLast?.getD (option.get .initial)) ∧
        options.common.selectedProfiles = settings.filterMap Setting.profileOf) ∧
      (options.Accepted →
        parseOptions (options.settings.flatMap Setting.render) = .ok (some options)) := by
  constructor
  · intro args h
    have haccepted := accepted_of_parseOptions h
    obtain ⟨settings, hsays, rfl⟩ := says_of_parseArguments (parseOptions_ok_iff.mp h).1
    refine ⟨haccepted, settings, hsays, fun option => get_applyAll option settings _, ?_⟩
    exact profiles_applyAll settings .initial
  · exact parseOptions_settings

/-- A command line with repeated options. -/
def repeatedArguments : List Text :=
  ["--threads".toList, "2".toList, "--profile".toList, "drop-oldest".toList, "--keep-logs".toList,
    "--output".toList, "logs/".toList, "--threads".toList, "08".toList, "--profile".toList,
    "block".toList]

def repeatedOptions : BenchmarkOptions :=
  { BenchmarkOptions.initial with
    common := { BenchmarkOptions.initial.common with
      threadCount := 8
      outputDirectory := "logs/".toList
      keepLogs := true
      selectedProfiles := ["drop-oldest".toList, "block".toList]
      threadCount_pos := Nat.zero_lt_succ 7 } }

theorem parseOptions_accepts_repeated :
    parseOptions repeatedArguments = .ok (some repeatedOptions) ∧
      (∃ settings, Says settings repeatedArguments ∧
        (settings.filterMap (Setting.numberFor .threads)).getLast?.getD 4 = 8 ∧
        settings.filterMap Setting.profileOf = ["drop-oldest".toList, "block".toList]) ∧
      parseOptions (repeatedOptions.settings.flatMap Setting.render) =
        .ok (some repeatedOptions) := by
  have hparse : parseOptions repeatedArguments = .ok (some repeatedOptions) := rfl
  obtain ⟨hsound, hround⟩ := parseOptions_accepts repeatedOptions
  obtain ⟨haccepted, settings, hsays, hnumbers, hprofiles⟩ := hsound repeatedArguments hparse
  exact ⟨hparse, ⟨settings, hsays, (hnumbers .threads).symm, hprofiles.symm⟩, hround haccepted⟩

end CppLogger
