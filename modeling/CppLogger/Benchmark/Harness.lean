import CppLogger.Formatting.LogRecord
import CppLogger.Foundation.Paths

/-!
# The benchmark harness: run contexts and the inspection of the output

A run has a marker of its own, which every message of the run begins with. After the run
the marker is counted in the log files. The file system answers through the entries that
the directory iterator visits, each with what the requests about it return; the clock and
the sequence counter are arguments. The counter's wrap-around after `2 ^ 64` contexts is
not modelled.

Numbers of type `double` are abstract: the harness computes with them and prints them.
-/

namespace CppLogger

open Paths

/-- `other` is a value cast from an integer outside the enumerators. -/
inductive RunPhase
  | Warmup
  | Measured
  | other (value : ℤ)
  deriving DecidableEq, Repr

/-- The options that the modelled functions read. The command line only sets positive
numbers of messages, and the division in `validateCommonOptions` relies on it. -/
structure CommonOptions where
  threadCount : ℕ := 4
  messagesPerThread : ℕ := 250000
  payloadSize : ℕ := 128
  flushIntervalMilliseconds : ℕ := 1000
  outputDirectory : Text := "benchmark_logs".toList
  messagesPerThread_pos : 0 < messagesPerThread := by decide
  deriving Repr

structure RunContext where
  outputDirectory : Text
  marker : Text
  payload : Text
  attempted : ℕ := 0
  deriving DecidableEq, Repr

structure ProducerTiming where
  started : ℤ
  producersDone : ℤ
  deriving DecidableEq, Repr

structure OutputStats where
  deliveredRecords : ℕ := 0
  bytes : ℕ := 0
  fileCount : ℕ := 0
  deriving DecidableEq, Repr

/-- The operations on `double`. `fixed precision value` is the text that a stream in the
classic locale prints with `std::fixed` and `std::setprecision(precision)`. -/
structure FloatingPoint (D : Type) where
  ofNat : ℕ → D
  /-- `std::chrono::duration<double>` of nanoseconds. -/
  seconds : ℤ → D
  add : D → D → D
  mul : D → D → D
  div : D → D → D
  lt : D → D → Bool
  le : D → D → Bool
  fixed : ℕ → D → Text

structure RunMetrics (D : Type) where
  attempted : ℕ
  delivered : ℕ
  dropped : ℕ
  output : OutputStats
  producerSeconds : D
  drainSeconds : D
  endToEndSeconds : D

inductive HarnessError
  | invalid_argument (what : Text)
  | runtime_error (what : Text)
  | length_error (what : Text)
  | bad_alloc
  deriving DecidableEq, Repr

def runPhaseName : RunPhase → Text
  | .Warmup => "warmup".toList
  | .Measured => "measured".toList
  | .other _ => "unknown".toList

def checkedToUint64 (value : ℕ) (description : Text) : Except HarnessError ℕ :=
  if value > wordBound - 1 then .error (.invalid_argument (description ++ " is too large".toList))
  else .ok value

/-- The largest `std::chrono::milliseconds`. -/
def millisecondsMax : ℕ := 2 ^ 63 - 1

def validateCommonOptions (options : CommonOptions) : Except HarnessError Unit := do
  if options.outputDirectory = [] then
    throw (.invalid_argument "--output must not be empty".toList)
  if options.threadCount > (wordBound - 1) / options.messagesPerThread then
    throw (.invalid_argument "threads multiplied by messages is too large".toList)
  let attempted := options.threadCount * options.messagesPerThread
  let _ ← checkedToUint64 attempted "total message count".toList
  if options.flushIntervalMilliseconds > millisecondsMax then
    throw (.invalid_argument "flush interval is too large".toList)

/-- One call of `makeRunContext`, with what the steady clock reads, the `max_size()` of a
string, whether there is storage for the payload, and the error of `create_directories`. -/
structure ContextCall where
  options : CommonOptions
  library : Text
  profile : Text
  phase : RunPhase
  runIndex : ℕ
  timestamp : ℤ
  maxStringSize : ℕ := 2 ^ 63 - 1
  allocates : Bool := true
  createError : Option Text := none
  deriving Repr

namespace ContextCall

variable (call : ContextCall) (currentSequence : ℕ)

def suffix : Text :=
  runPhaseName call.phase ++ ['_'] ++ decimal call.runIndex ++ ['_'] ++ decimal call.timestamp ++
    ['_'] ++ decimal currentSequence

def directory : Text :=
  joinPath (joinPath (joinPath call.options.outputDirectory call.library) call.profile)
    (call.suffix currentSequence)

def marker : Text :=
  "[benchmark:".toList ++ call.library ++ [':'] ++ call.profile ++ [':'] ++
    call.suffix currentSequence ++ [']']

/-- The marker, followed by as many `x` as the payload has room for. -/
def payload : Text :=
  let marker := call.marker currentSequence
  marker ++ List.replicate (call.options.payloadSize - marker.length) 'x'

/-- `context.payload.append`, which brings the marker to the size of a payload. -/
def appendPayload : Except HarnessError Text :=
  if call.options.payloadSize > call.maxStringSize then
    .error (.length_error "basic_string::_M_replace_aux".toList)
  else if call.allocates then .ok (call.payload currentSequence)
  else .error .bad_alloc

/-- `makeRunContext` past the increment of the sequence counter. -/
def buildContext : Except HarnessError RunContext := do
  let marker := call.marker currentSequence
  if marker.length > call.options.payloadSize then
    throw (.invalid_argument
      "--payload is too small for the benchmark validation marker".toList)
  let payload ← call.appendPayload currentSequence
  let attempted ← checkedToUint64
    (call.options.threadCount * call.options.messagesPerThread) "total message count".toList
  match call.createError with
  | some message =>
    throw (.runtime_error ("unable to create benchmark directory: ".toList ++ message))
  | none =>
    return { outputDirectory := call.directory currentSequence, marker, payload, attempted }

/-- The context of a call, and the sequence counter after it, which has 64 bits in the source
(see `makeRunContexts_numbered`). -/
def makeRunContext (sequence : ℕ) : Except HarnessError RunContext × ℕ :=
  match validateCommonOptions call.options with
  | .error e => (.error e, sequence)
  | .ok _ => (call.buildContext (sequence + 1), sequence + 1)

end ContextCall

/-- The contexts that a process makes, in the order in which its calls increment the
sequence counter. -/
def makeRunContexts : ℕ → List ContextCall → List (Except HarnessError RunContext)
  | _, [] => []
  | sequence, call :: calls =>
    (call.makeRunContext sequence).1 :: makeRunContexts (call.makeRunContext sequence).2 calls

/-! ## The inspection of the output -/

/-- What the directory iterator finds, and what the requests about it return: an error of
`increment`, `is_regular_file` and `file_size`, whether the file can be opened, its bytes,
and whether reading comes to their end. -/
structure DirectoryEntry where
  path : Text
  extension : Text
  incrementError : Option Text := none
  regular : Except Text Bool := .ok true
  fileSize : Except Text ℕ
  opens : Bool := true
  content : Text
  readable : Bool := true

/-- The first position at or after `offset` at which `needle` occurs, as `std::string::find`
reports it. -/
def findFrom (line needle : Text) (offset : ℕ) : Option ℕ :=
  (List.range' offset (line.length + 1 - offset)).find? fun k => needle.isPrefixOf (line.drop k)

/-- The loop over the occurrences of the marker in a line. The fuel is the number of
positions that are left; no search goes back. -/
def countMarkers (line marker : Text) : ℕ → ℕ → ℕ → Except HarnessError ℕ
  | 0, _, delivered => .ok delivered
  | fuel + 1, offset, delivered =>
    match findFrom line marker offset with
    | none => .ok delivered
    | some k =>
      if delivered = wordBound - 1 then
        .error (.runtime_error "too many validated benchmark records".toList)
      else countMarkers line marker fuel (k + marker.length) (delivered + 1)

/-- The lines that `std::getline` reads: what follows the last newline is a line only when
it is not empty. -/
def getlines (content : Text) : List Text :=
  let lines := content.splitOn '\n'
  if lines.getLast? = some [] then lines.dropLast else lines

/-- The records of a file, added to those of the files before it. -/
def countLines (marker : Text) : List Text → ℕ → Except HarnessError ℕ
  | [], delivered => .ok delivered
  | line :: lines, delivered => do
    let delivered ← countMarkers line marker (line.length + 1) 0 delivered
    countLines marker lines delivered

/-- One iteration of the loop over the directory. -/
def inspectEntry (context : RunContext) (stats : OutputStats) (entry : DirectoryEntry) :
    Except HarnessError OutputStats :=
  match entry.incrementError with
  | some message =>
    .error (.runtime_error ("unable to enumerate benchmark logs: ".toList ++ message))
  | none =>
    match entry.regular with
    | .error message =>
      .error (.runtime_error ("unable to inspect benchmark output: ".toList ++ message))
    | .ok false => .ok stats
    | .ok true =>
      if entry.extension ≠ ".log".toList then .ok stats
      else
        match entry.fileSize with
        | .error message =>
          .error (.runtime_error ("unable to read benchmark output size: ".toList ++ message))
        | .ok fileSize =>
          if fileSize > wordBound - 1 - stats.bytes then
            .error (.runtime_error "benchmark output is too large to measure".toList)
          else if entry.opens = false then
            .error (.runtime_error ("unable to open benchmark output: ".toList ++ entry.path))
          else do
            let deliveredRecords ←
              countLines context.marker (getlines entry.content) stats.deliveredRecords
            if entry.readable = false then
              throw (.runtime_error ("unable to read benchmark output: ".toList ++ entry.path))
            return { deliveredRecords
                     bytes := stats.bytes + fileSize
                     fileCount := stats.fileCount + 1 }

/-- `listing` is what the iterator visits, or the error of opening the directory. -/
def inspectLogOutput (context : RunContext) (listing : Except Text (List DirectoryEntry)) :
    Except HarnessError OutputStats :=
  match listing with
  | .error message =>
    .error (.runtime_error ("unable to enumerate benchmark logs: ".toList ++ message))
  | .ok entries => entries.foldlM (inspectEntry context) {}

def finalizeRun {D : Type} (d : FloatingPoint D) (context : RunContext) (timing : ProducerTiming)
    (finished : ℤ) (expectedDropped : Option ℕ)
    (listing : Except Text (List DirectoryEntry)) : Except HarnessError (RunMetrics D) := do
  let output ← inspectLogOutput context listing
  let delivered := output.deliveredRecords
  if delivered > context.attempted then
    throw (.runtime_error "validated output contains more records than were submitted".toList)
  let dropped := context.attempted - delivered
  if expectedDropped.any (· ≠ dropped) then
    throw (.runtime_error "logger drop counter does not match validated output".toList)
  let producerSeconds := d.seconds (timing.producersDone - timing.started)
  let drainSeconds := d.seconds (finished - timing.producersDone)
  let endToEndSeconds := d.seconds (finished - timing.started)
  if d.le producerSeconds (d.ofNat 0) || d.lt drainSeconds (d.ofNat 0) ||
      d.le endToEndSeconds (d.ofNat 0) then
    throw (.runtime_error "invalid benchmark timing result".toList)
  return { attempted := context.attempted
           delivered, dropped, output, producerSeconds, drainSeconds, endToEndSeconds }

end CppLogger
