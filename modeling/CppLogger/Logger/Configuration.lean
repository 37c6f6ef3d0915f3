import CppLogger.Formatting.LogRecord
import CppLogger.Queue.BlockingQueue

/-!
# The configuration of a logger

`init` rejects a configuration before it touches anything; a configuration that passes
determines the sinks of the lifecycle.
-/

namespace CppLogger

/-- `other` is a value cast from an integer outside the enumerators. -/
inductive FlushPolicy
  | OnStop
  | Periodic
  | EveryBatch
  | other (value : ℤ)
  deriving DecidableEq, Repr

inductive ConsoleStream
  | Stdout
  | Stderr
  | other (value : ℤ)
  deriving DecidableEq, Repr

/-- The sinks `init` puts into its list. A sink of the user is known by its address. -/
inductive Sink
  | file (basePath : Text) (maxFileSize writeBatchSize : ℕ)
  | console (stream : ConsoleStream) (writeBatchSize : ℕ)
  | additional (address : ℕ)
  deriving DecidableEq, Repr

/-- `flushInterval` is in milliseconds; an entry of `additionalSinks` may be null. -/
structure LoggerConfig where
  basePath : Text := []
  minLevel : LogLevel := .DEBUG
  maxFileSize : ℕ := 1024 * 1024
  queueCapacity : ℕ := 8192
  overflowPolicy : OverflowPolicy := .Block
  writeBatchSize : ℕ := 256
  flushPolicy : FlushPolicy := .Periodic
  flushInterval : ℤ := 1000
  flushAtOrAbove : Option LogLevel := some .ERROR
  enableFileSink : Bool := true
  enableConsoleSink : Bool := false
  consoleStream : ConsoleStream := .Stdout
  additionalSinks : List (Option ℕ) := []
  deriving DecidableEq, Repr

def isValidOverflowPolicy : OverflowPolicy → Bool
  | .Block | .DropNewest | .DropOldest => true
  | .other _ => false

def isValidLogLevel : LogLevel → Bool
  | .DEBUG | .INFO | .WARN | .ERROR | .FATAL => true
  | .other _ => false

def isValidFlushPolicy : FlushPolicy → Bool
  | .OnStop | .Periodic | .EveryBatch => true
  | .other _ => false

def isValidConsoleStream : ConsoleStream → Bool
  | .Stdout | .Stderr => true
  | .other _ => false

namespace LoggerConfig

variable (config : LoggerConfig)

/-- The checks of `init` that concern the configuration, in the order of the source. -/
def rejected : Bool :=
  decide (config.queueCapacity = 0) ||
  decide (config.writeBatchSize = 0) || !isValidLogLevel config.minLevel ||
  !isValidOverflowPolicy config.overflowPolicy || !isValidFlushPolicy config.flushPolicy ||
  (decide (config.flushPolicy = .Periodic) && decide (config.flushInterval ≤ 0)) ||
  (config.flushAtOrAbove.any fun level => !isValidLogLevel level) ||
  !isValidConsoleStream config.consoleStream ||
  (!config.enableFileSink && !config.enableConsoleSink && config.additionalSinks.isEmpty) ||
  (config.enableFileSink && (config.basePath.isEmpty || decide (config.maxFileSize = 0))) ||
  config.additionalSinks.any Option.isNone

def newSinks : List Sink :=
  (if config.enableFileSink then
    [.file config.basePath config.maxFileSize config.writeBatchSize] else []) ++
  (if config.enableConsoleSink then
    [.console config.consoleStream config.writeBatchSize] else []) ++
  config.additionalSinks.filterMap (Option.map .additional)

/-- An accepted configuration has at least one sink. -/
theorem newSinks_ne_nil (h : config.rejected = false) : config.newSinks ≠ [] := by
  unfold rejected at h
  simp only [Bool.or_eq_false_iff, Bool.and_eq_false_iff, Bool.not_eq_false'] at h
  obtain ⟨⟨⟨-, hsome⟩, -⟩, hnonnull⟩ := h
  unfold newSinks
  rcases hsome with (hfile | hconsole) | hadditional
  · simp [hfile]
  · simp [hconsole]
  · intro hnil
    obtain ⟨entry, rest, hcons⟩ : ∃ entry rest, config.additionalSinks = entry :: rest := by
      cases hsinks : config.additionalSinks with
      | nil => simp [hsinks] at hadditional
      | cons entry rest => exact ⟨entry, rest, rfl⟩
    cases entry with
    | none => simp [hcons] at hnonnull
    | some address => simp [hcons] at hnil

theorem writeBatchSize_pos (h : config.rejected = false) : 0 < config.writeBatchSize := by
  unfold rejected at h
  simp only [Bool.or_eq_false_iff, decide_eq_false_iff_not] at h
  omega

end LoggerConfig

end CppLogger
