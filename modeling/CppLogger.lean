import CppLogger.Foundation.TransitionSystem
import CppLogger.Foundation.Census
import CppLogger.Foundation.Bytes
import CppLogger.Foundation.Fifo
import CppLogger.Foundation.Statements
import CppLogger.Foundation.Rotation
import CppLogger.Foundation.Search
import CppLogger.Foundation.Csv
import CppLogger.Queue.BlockingQueue
import CppLogger.Queue.QueueSystem
import CppLogger.Queue.CallInvariant
import CppLogger.Queue.Accounting
import CppLogger.Queue.Wakeups
import CppLogger.Queue.SingleConsumer
import CppLogger.Queue.Bounds
import CppLogger.Queue.Batches
import CppLogger.Queue.Release
import CppLogger.Formatting.LogRecord
import CppLogger.Formatting.Milliseconds
import CppLogger.Logger.Configuration
import CppLogger.Logger.System
import CppLogger.Logger.Lifecycle
import CppLogger.Logger.History
import CppLogger.Logger.FanOut
import CppLogger.Logger.Settings
import CppLogger.Logger.Tickets
import CppLogger.Logger.Delivery
import CppLogger.Logger.Timestamps
import CppLogger.Logger.RecordLines
import CppLogger.Logger.Clock
import CppLogger.Logger.Deadlines
import CppLogger.Logger.Waiting
import CppLogger.Logger.Flushing
import CppLogger.Logger.FinalFlush
import CppLogger.Logger.Protocol
import CppLogger.Logger.FailedInit
import CppLogger.Logger.Stopped
import CppLogger.Logger.Macro
import CppLogger.Logger.Closing
import CppLogger.Logger.Join
import CppLogger.Logger.Progress
import CppLogger.Logger.Answers
import CppLogger.Logger.Drain
import CppLogger.Logger.Stop
import CppLogger.Sinks.FileSink
import CppLogger.Sinks.Refinement
import CppLogger.Sinks.Batching
import CppLogger.Sinks.Lifetimes
import CppLogger.Sinks.Lines
import CppLogger.Sinks.OpenFailures
import CppLogger.Sinks.Failures
import CppLogger.Logger.Reservations
import CppLogger.Benchmark.Harness
import CppLogger.Benchmark.Counting
import CppLogger.Benchmark.LogFiles
import CppLogger.Benchmark.VerifiedRun
import CppLogger.Benchmark.Report
import CppLogger.Benchmark.ProducerGroup
import CppLogger.Benchmark.ProducerMoves
import CppLogger.Benchmark.StartBarrier
import CppLogger.Benchmark.ProducerRuns
import CppLogger.Benchmark.StartProtocol
import CppLogger.Benchmark.ProducerRelease
import CppLogger.Benchmark.CommandLine
import CppLogger.Benchmark.AcceptedOptions
import CppLogger.Benchmark.Program
import CppLogger.Benchmark.ProgramRuns
import CppLogger.Benchmark.ProgramOutcome
