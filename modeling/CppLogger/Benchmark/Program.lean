import CppLogger.Benchmark.CommandLine
import CppLogger.Benchmark.Report
import CppLogger.Logger.Configuration

/-!
# The benchmark program

`main` reads the command line, runs every selected profile, first without reporting and then
for its rows, and prints what it has measured. Each run answers to an environment: the clock,
the file system, the logger and the producers. What is thrown is known by its `what()`.
-/

namespace CppLogger

open Paths

/-- An exception derived from `std::exception`. -/
structure StdException where
  what : Text
  deriving DecidableEq, Repr

def HarnessError.toStd : HarnessError → StdException
  | .invalid_argument what => ⟨what⟩
  | .runtime_error what => ⟨what⟩
  | .length_error what => ⟨what⟩
  | .bad_alloc => ⟨"std::bad_alloc".toList⟩

structure BenchmarkProfile where
  id : Text
  queuePolicy : Text
  overflowPolicy : OverflowPolicy
  deriving Repr

/-- What the world answers during one run: the steady clock, the storage for its payload and
the error of `create_directories`, whether the logger comes up with an accepted configuration,
the timing of the producers or what they throw, the end of the run, the logger's drop counter,
the files that are found, and the error of `remove_all`. `maxResults` and `allocatesResults`
answer the request for the results of all measured runs that may precede the run: the
`max_size()` of their vector, and whether there is storage for them. -/
structure RunEnvironment where
  timestamp : ℤ
  maxStringSize : ℕ := 2 ^ 63 - 1
  allocatesPayload : Bool := true
  maxResults : ℕ := (2 ^ 63 - 1) / 72
  allocatesResults : Bool := true
  createError : Option Text := none
  comesUp : Bool := true
  producers : Except StdException ProducerTiming
  finished : ℤ
  dropped : ℕ
  listing : Except Text (List DirectoryEntry)
  removeError : Option Text := none

/-- What a run does to the logger, the threads and the file system. -/
inductive RunEvent
  | created (directory : Text)
  | stopped
  | initialized (accepted : Bool)
  | started (returned : Bool)
  | released
  | inspected (directory : Text)
  | removed (directory : Text)
  deriving DecidableEq, Repr

/-- One call of `runOnce`. -/
structure RunCall where
  profile : Text
  phase : RunPhase
  runIndex : ℕ
  deriving DecidableEq, Repr

/-- The output of the program, the sequence counter of the harness, the variable `initialized`
of `runOnce`, and what has been done so far. -/
structure ProgramState where
  stdout : Text := []
  stderr : Text := []
  sequence : ℕ := 0
  initialized : Bool := false
  calls : List RunCall := []
  events : List RunEvent := []

abbrev Program := EStateM StdException ProgramState

/-! ## One run -/

section RunOnce

def note (event : RunEvent) : Program Unit :=
  modify fun s => { s with events := s.events ++ [event] }

def liftHarness {α : Type} : Except HarnessError α → Program α
  | .ok a => pure a
  | .error e => throw e.toStd

def setInitialized (initialized : Bool) : Program Unit := modify fun s => { s with initialized }

def queueCapacity (options : BenchmarkOptions) : ℕ :=
  word64 (options.common.threadCount * options.queueCapacityPerProducer)

def loggerFlushPolicy (mode : FlushMode) : FlushPolicy :=
  if mode = .FinalDrain then .OnStop else .Periodic

/-- The configuration that `runOnce` gives to the logger. -/
def runConfig (options : BenchmarkOptions) (profile : BenchmarkProfile) (context : RunContext) :
    LoggerConfig where
  basePath := joinPath context.outputDirectory "cpp_logger".toList
  minLevel := .INFO
  maxFileSize := (wordBound - 1) / 2
  queueCapacity := queueCapacity options
  overflowPolicy := profile.overflowPolicy
  writeBatchSize := options.writeBatchSize
  flushPolicy := loggerFlushPolicy options.common.flushMode
  flushInterval := options.common.flushIntervalMilliseconds
  flushAtOrAbove := none
  enableConsoleSink := false

def contextCall (env : RunEnvironment) (options : BenchmarkOptions) (call : RunCall) :
    ContextCall where
  options := options.common.toCommonOptions
  library := "cpp_logger".toList
  profile := call.profile
  phase := call.phase
  runIndex := call.runIndex
  timestamp := env.timestamp
  maxStringSize := env.maxStringSize
  allocates := env.allocatesPayload
  createError := env.createError

def makeContext (call : ContextCall) : Program RunContext := do
  let (result, sequence) := call.makeRunContext (← get).sequence
  modify fun s => { s with sequence }
  let context ← liftHarness result
  note (.created context.outputDirectory)
  return context

/-- `logger.init` after `logger.stop`. -/
def initLogger (env : RunEnvironment) (config : LoggerConfig) : Program Bool := do
  let accepted := !config.rejected && env.comesUp
  note (.initialized accepted)
  return accepted

/-- `startProducers`. A group whose start fails has joined its threads when it throws. -/
def startProducers (env : RunEnvironment) : Program ProducerTiming :=
  match env.producers with
  | .ok timing => do
    note (.started true)
    return timing
  | .error e => do
    note (.started false)
    throw e

def cleanupRunDirectory (env : RunEnvironment) (context : RunContext) (keepLogs : Bool) :
    Program Unit := do
  if keepLogs then return
  note (.removed context.outputDirectory)
  match env.removeError with
  | none => return
  | some message => modify fun s => { s with
      stderr := s.stderr ++ "warning: unable to remove benchmark logs: ".toList ++ message ++
        ['\n'] }

variable {D : Type} (d : FloatingPoint D)

/-- The statements behind the start of the producers. -/
def finishRun (env : RunEnvironment) (options : BenchmarkOptions) (context : RunContext)
    (timing : ProducerTiming) : Program (RunMetrics D) := do
  note .stopped
  setInitialized false
  note .released
  note (.inspected context.outputDirectory)
  let metrics ← liftHarness
    (finalizeRun d context timing env.finished (some env.dropped) env.listing)
  cleanupRunDirectory env context options.common.keepLogs
  return metrics

/-- The `try` block of `runOnce`. -/
def attemptRun (env : RunEnvironment) (options : BenchmarkOptions) (profile : BenchmarkProfile)
    (context : RunContext) : Program (RunMetrics D) := do
  note .stopped
  let accepted ← initLogger env (runConfig options profile context)
  if !accepted then throw ⟨"unable to initialize cpp_logger".toList⟩
  setInitialized true
  let timing ← startProducers env
  -- The destructor of the group releases the threads on every way out.
  try finishRun d env options context timing
  finally note .released

/-- The `catch` block of `runOnce`. -/
def failRun (env : RunEnvironment) (options : BenchmarkOptions) (context : RunContext)
    (e : StdException) : Program (RunMetrics D) := do
  if (← get).initialized then note .stopped
  cleanupRunDirectory env context options.common.keepLogs
  throw e

def runOnce (env : RunEnvironment) (options : BenchmarkOptions) (profile : BenchmarkProfile)
    (phase : RunPhase) (runIndex : ℕ) : Program (RunMetrics D) := do
  let call : RunCall := ⟨profile.id, phase, runIndex⟩
  modify fun s => { s with calls := s.calls ++ [call] }
  let context ← makeContext (contextCall env options call)
  setInitialized false
  try attemptRun d env options profile context
  catch e => failRun env options context e

/-- A loop of `runProfile`, from `runIndex` on. The counter is a word; the fuel is more than any
loop needs that ends. -/
def runLoop {m : Type → Type} [Monad m] {β : Type} (runs : ℕ) (body : ℕ → m β) :
    ℕ → ℕ → m (List β)
  | 0, _ => pure []
  | fuel + 1, runIndex => do
    if runIndex ≤ runs then
      let result ← body runIndex
      let results ← runLoop runs body fuel (word64 (runIndex + 1))
      return result :: results
    else return []

/-- `measured.reserve(count)`. -/
def reserveResults (env : RunEnvironment) (count : ℕ) : Except HarnessError Unit :=
  if count > env.maxResults then .error (.length_error "vector::reserve".toList)
  else if env.allocatesResults then .ok ()
  else .error .bad_alloc

example (env : RunEnvironment) (hmax : env.maxResults = (2 ^ 63 - 1) / 72) :
    reserveResults env 200000000000000000 = .error (.length_error "vector::reserve".toList) := by
  unfold reserveResults
  rw [hmax, if_pos (by decide)]

/-- The warm-up runs, whose results are ignored, and then the measured runs, whose results find
their storage reserved. -/
def runProfile {m : Type → Type} [Monad m] (options : HarnessOptions) (reserve : ℕ → m Unit)
    (runOnce : RunPhase → ℕ → m (RunMetrics D)) : m (List (RunMetrics D)) := do
  let _ ← runLoop options.warmupRuns (runOnce .Warmup) wordBound 1
  reserve options.measuredRuns
  runLoop options.measuredRuns (runOnce .Measured) wordBound 1

end RunOnce

/-! ## The program -/

def print (text : Text) : Program Unit := modify fun s => { s with stdout := s.stdout ++ text }

def profiles : List BenchmarkProfile :=
  [⟨"block".toList, "Block".toList, .Block⟩,
    ⟨"drop-newest".toList, "DropNewest".toList, .DropNewest⟩,
    ⟨"drop-oldest".toList, "DropOldest".toList, .DropOldest⟩]

/-- The error of the first profile that has been asked for and does not exist. -/
def validateProfiles (options : BenchmarkOptions) (profiles : List BenchmarkProfile) :
    Except HarnessError Unit :=
  options.common.selectedProfiles.forM fun selectedProfile =>
    if profiles.any fun profile => profile.id == selectedProfile then return
    else throw (.invalid_argument ("unknown --profile value: ".toList ++ selectedProfile))

def shouldRunProfile (options : HarnessOptions) (profile : Text) : Bool :=
  options.selectedProfiles.isEmpty || options.selectedProfiles.contains profile

def metadataFor (options : BenchmarkOptions) (profile : BenchmarkProfile) :
    BenchmarkMetadata where
  library := "cpp_logger".toList
  libraryVersion := "0.1.1".toList
  profile := profile.id
  queuePolicy := profile.queuePolicy
  queueCapacity := decimal (queueCapacity options) ++ " records total".toList
  flushMode := flushModeName options.common.flushMode

def preamble (options : BenchmarkOptions) : Text :=
  "# benchmark=cpp_logger\n".toList ++
    "# threads=".toList ++ decimal options.common.threadCount ++
    ", messages_per_thread=".toList ++ decimal options.common.messagesPerThread ++
    ", payload_bytes=".toList ++ decimal options.common.payloadSize ++
    ", warmups=".toList ++ decimal options.common.warmupRuns ++
    ", measured_runs=".toList ++ decimal options.common.measuredRuns ++
    ", queue_per_thread=".toList ++ decimal options.queueCapacityPerProducer ++
    ", batch_size=".toList ++ decimal options.writeBatchSize ++ ['\n']

def commonUsage : Text :=
  "  --threads <N>              Producer thread count (default: 4)\n".toList ++
  "  --messages <N>             Messages per producer (default: 250000)\n".toList ++
  "  --payload <N>              Fixed message-body bytes, including validation marker ".toList ++
    "(default: 128)\n".toList ++
  "  --warmups <N>              Unreported complete warmup runs (default: 1)\n".toList ++
  "  --runs <N>                 Measured runs per profile (default: 10)\n".toList ++
  "  --flush-mode <X>           final-drain or periodic (default: final-drain)\n".toList ++
  "  --flush-interval-ms <N>    Periodic flush interval (default: 1000)\n".toList ++
  "  --output <PATH>            Root directory for temporary logs (default: ".toList ++
    "benchmark_logs)\n".toList ++
  "  --keep-logs                Retain verified log files after each run\n".toList ++
  "  --profile <ID>             Run one profile; may be repeated\n".toList

def usage (program : Text) : Text :=
  "Usage: ".toList ++ program ++ " [options]\n\n".toList ++
  "Measure cpp_logger asynchronous file logging.\n\n".toList ++
  "Common options:\n".toList ++ commonUsage ++
  "\ncpp_logger options:\n".toList ++
  "  --queue-per-thread <N>    Queue records per producer (default: 2048)\n".toList ++
  "  --batch-size <N>          Records formatted and written per backend batch ".toList ++
    "(default: 256)\n".toList ++
  "  --help                    Show this help message\n\n".toList ++
  "Profiles: block, drop-newest, drop-oldest\n".toList

section Main

variable {D : Type} (d : FloatingPoint D) (envs : ℕ → RunEnvironment)

/-- The runs of a profile and the lines for its measured ones. The environments are numbered
by the runs that are over. -/
def reportProfile (options : BenchmarkOptions) (profile : BenchmarkProfile) :
    Program (BenchmarkMetadata × List (RunMetrics D)) := do
  let metadata := metadataFor options profile
  let reserve count : Program Unit := do
    liftHarness (reserveResults (envs (← get).calls.length) count)
  let measured ← runProfile options.common reserve fun phase runIndex => do
    runOnce d (envs (← get).calls.length) options profile phase runIndex
  (measured.zipIdx 1).forM fun (metrics, runIndex) =>
    print (printRunCsv d [] metadata .Measured runIndex metrics)
  return (metadata, measured)

def reportAll (options : BenchmarkOptions) : Program Unit := do
  liftHarness (validateProfiles options profiles)
  print (preamble options)
  print (printRunCsvHeader [])
  let selected := profiles.filter fun profile => shouldRunProfile options.common profile.id
  let allResults ← selected.mapM (reportProfile d envs options)
  print "\n# summary rows\n".toList
  print (printSummaryCsvHeader [])
  allResults.forM fun result => do
    print (← liftHarness (printSummaryCsv d [] result.1 result.2))

/-- `main`, with the name of the program and the arguments behind it; what it returns or exits
with. -/
def main (program : Text) (args : List Text) : Program ℕ := do
  try
    match ← liftHarness (parseOptions args) with
    | none =>
      print (usage program)
      pure 0
    | some options =>
      reportAll d envs options
      pure 0
  catch error =>
    modify fun s => { s with
      stderr := s.stderr ++ "cpp_logger benchmark failed: ".toList ++ error.what ++ ['\n'] }
    pure 1

end Main

end CppLogger
