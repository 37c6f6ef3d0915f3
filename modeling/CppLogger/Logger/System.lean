import CppLogger.Logger.Configuration
import CppLogger.Queue.CallInvariant

/-!
# The logger as a concurrent system

Any number of application threads call `log`, `logStatic`, `setLevel`, `init` and `stop`;
one worker drains the queue. A step of a thread is one access to shared state: taking the
lifecycle lock, an atomic load or store, a call into the queue, the beginning or the end
of a call into a sink. Everything a thread only does to itself belongs to its next step.

The scheduler chooses who moves, whether allocations, thread creation and sink calls
succeed (`ok`), and what the clocks read (`now`, in nanoseconds). Sinks do not call back.
-/

namespace CppLogger

/-- The arguments of a log call, and its number among all requests. -/
structure LogCall where
  ticket : ℕ
  level : LogLevel
  file : Option Text
  line : ℤ
  message : Text
  fileHasStaticStorage : Bool
  deriving DecidableEq, Repr

/-- A queued record, with the number of the call that made it. -/
structure Entry (Tid : Type*) where
  ticket : ℕ
  record : LogRecord Tid
  deriving DecidableEq, Repr

/-- Where an application thread stands. A `k` counts the sinks already closed. -/
inductive Frame (Tid : Type*)
  | idle
  | logEnter (call : LogCall)
  | logRunning (call : LogCall)
  | logLevel (call : LogCall)
  | logGeneration (call : LogCall)
  | logCapture (call : LogCall) (queueGeneration : ℕ)
  | logPush (queueGeneration : ℕ) (entry : Entry Tid)
  | setLevel (level : LogLevel)
  | initEnter (config : LoggerConfig)
  | initCheck (config : LoggerConfig)
  | initJoin (config : LoggerConfig)
  | initClose (config : LoggerConfig) (k : ℕ)
  | initBuild (config : LoggerConfig)
  | initReset (config : LoggerConfig)
  | initResetting (config : LoggerConfig)
  | initConfigure (config : LoggerConfig)
  | initRunning
  | initSpawn
  | initUnspawn
  | initCloseQueue
  | initClosing
  | initAbandon (k : ℕ)
  | initReturn (result : Bool)
  | stopEnter
  | stopRunning
  | stopCloseQueue
  | stopClosing
  | stopJoin
  | stopSinks (k : ℕ)
  deriving DecidableEq, Repr

/-- Which `flushSinks` of the worker is under way: the one of an idle iteration, the one
after a batch, or the last one, after a failure or not. -/
inductive FlushSite
  | idle
  | batch (nextFlush : ℤ)
  | last (failed : Bool)
  deriving DecidableEq, Repr

/-- Where the worker stands, with its local variables. `busy` tells that it is inside a
call of sink `k`; `caught final` is the first or the second exception handler. -/
inductive WorkerPc (Tid : Type*)
  | absent
  | reserve
  | loop (nextFlush : ℤ)
  | popping (nextFlush : ℤ) (timeout : Option ℤ)
  | idle (nextFlush : ℤ)
  | flushing (site : FlushSite) (k : ℕ) (busy : Bool)
  | rearm (site : FlushSite)
  | checkClosed (nextFlush : ℤ)
  | format (nextFlush : ℤ) (batch : List (Entry Tid)) (formattedBatch : List Text)
      (flushForLevel : Bool)
  | write (nextFlush : ℤ) (k : ℕ) (busy : Bool) (batch : List (Entry Tid))
      (formattedBatch : List Text) (flushForLevel : Bool)
  | written (nextFlush : ℤ) (flushForLevel : Bool)
  | caught (final : Bool)
  | closeQueue (final : Bool)
  | closing (final : Bool)
  | finished (failed : Bool)
  deriving DecidableEq, Repr

/-- What an observer sees of a run. `sawRunning` and `passed` are the two checks of a log
call under the shared lock, the second with the levels it compares; `write` and `flush`
begin a call of sink `k`, `wrote` and `flushed` end it. -/
inductive LoggerEvent (Tid : Type*)
  | sawRunning (ticket : ℕ)
  | passed (ticket : ℕ) (level : LogLevel) (minLevel : ℤ)
  | logReturned (ticket : ℕ)
  | initReturned (t : Tid) (result : Bool)
  | stopCalled (t : Tid)
  | stopReturned (t : Tid)
  | configured (config : LoggerConfig)
  | write (k : ℕ) (batch : List (Entry Tid)) (formattedBatch : List Text)
  | wrote (k : ℕ) (ok : Bool)
  | flush (k : ℕ)
  | flushed (k : ℕ) (ok : Bool)
  | close (k : ℕ)
  | workerFinished (failed : Bool)
  | queue (who : Option Tid) (e : QueueEvent (Entry Tid))
  deriving DecidableEq, Repr

/-- The members of `Logger`, what every thread is doing (`none` in the queue is the
worker), and the number of requests so far. -/
structure LoggerState (Tid : Type*) where
  queues : QueueState (Entry Tid) (Option Tid)
  worker : WorkerPc Tid
  sinks : List Sink
  minLevel : ℤ
  running : Bool
  cache : TimestampCache
  writeBatchSize : ℕ
  flushPolicy : FlushPolicy
  flushInterval : ℤ
  flushAtOrAbove : Option LogLevel
  frames : Tid → Frame Tid
  tickets : ℕ

def LoggerState.initial {Tid : Type*} : LoggerState Tid where
  queues := .initial
  worker := .absent
  sinks := []
  minLevel := LogLevel.DEBUG.toInt
  running := false
  cache := {}
  writeBatchSize := 256
  flushPolicy := .Periodic
  flushInterval := 1000
  flushAtOrAbove := some .ERROR
  frames := fun _ => .idle
  tickets := 0

/-- What an application asks of the logger. -/
inductive Request
  | log (level : LogLevel) (file : Option Text) (line : ℤ) (message : Text)
  | logStatic (level : LogLevel) (file : Option Text) (line : ℤ) (message : Text)
  | setLevel (level : LogLevel)
  | init (config : LoggerConfig)
  | stop
  deriving DecidableEq, Repr

inductive LoggerAction (Tid : Type*)
  | begin (t : Tid) (request : Request)
  | app (t : Tid) (ok : Bool) (now : ℤ)
  | work (ok : Bool) (now : ℤ)
  | queue (a : QueueAction (Entry Tid) (Option Tid))
  deriving DecidableEq, Repr

/-- What a step does besides moving its thread. -/
inductive Effect (Tid : Type*)
  | skip
  | setRunning (running : Bool)
  | setMinLevel (level : LogLevel)
  | setCache (cache : TimestampCache)
  | configure (config : LoggerConfig)
  | dropSinks
  | join
  | spawn
  | call (op : QueueOp (Entry Tid))
  | ret
  deriving DecidableEq, Repr

/-- Where a step takes its thread, what else it does, and what an observer sees. -/
structure Move (F Tid : Type*) where
  next : F
  effect : Effect Tid := .skip
  events : List (LoggerEvent Tid) := []

variable {Tid : Type*}

/-- The frame holds `lifecycleMutex_` exclusively. -/
def Frame.exclusive : Frame Tid → Bool
  | .initCheck _ | .initJoin _ | .initClose _ _ | .initBuild _ | .initReset _
  | .initResetting _ | .initConfigure _ | .initRunning | .initSpawn | .initUnspawn
  | .initCloseQueue | .initClosing | .initAbandon _ | .initReturn _
  | .stopRunning | .stopCloseQueue | .stopClosing | .stopJoin | .stopSinks _ => true
  | _ => false

/-- The frame holds `lifecycleMutex_` shared. -/
def Frame.shared : Frame Tid → Bool
  | .logRunning _ | .logLevel _ | .logGeneration _ => true
  | _ => false

/-- The record that a log call captures. -/
def LogCall.record (call : LogCall) (t : Tid) (now : ℤ) : LogRecord Tid where
  timestamp := now
  level := call.level
  threadId := t
  staticFile := if call.fileHasStaticStorage then some (call.file.getD []) else none
  ownedFile := if call.fileHasStaticStorage then [] else call.file.getD []
  line := call.line
  message := call.message

/-- `now + flushInterval_`, the interval being in milliseconds. -/
def deadline (now flushInterval : ℤ) : ℤ := now + flushInterval * 10 ^ 6

/-- The timeout of the next wait, in milliseconds. -/
def waitTimeout (now nextFlush : ℤ) : ℤ :=
  if now ≥ nextFlush then 0 else (nextFlush - now).tdiv (10 ^ 6)

namespace LoggerState

variable (s : LoggerState Tid)

def queue : BlockingQueue (Entry Tid) := s.queues.queue

/-- The call of the queue that a thread is inside. -/
def call (who : Option Tid) : Option (Call (Entry Tid)) := s.queues.calls who

variable [Fintype Tid] [DecidableEq Tid]

/-- Nobody holds the lifecycle lock exclusively. -/
def sharable : Bool := decide (∀ t, (s.frames t).exclusive = false)

/-- Nobody holds the lifecycle lock. -/
def available : Bool := decide (∀ t, (s.frames t).exclusive = false ∧ (s.frames t).shared = false)

/-- The next step of an application thread; `none` when it has to wait. -/
def appStep (t : Tid) (ok : Bool) (now : ℤ) : Option (Move (Frame Tid) Tid) :=
  match s.frames t with
  | .idle => none
  -- logImpl
  | .logEnter call => if s.sharable then some { next := .logRunning call } else none
  | .logRunning call =>
    if s.running then some { next := .logLevel call, events := [.sawRunning call.ticket] }
    else some { next := .idle, events := [.logReturned call.ticket] }
  | .logLevel call =>
    if call.level.toInt < s.minLevel then
      some { next := .idle, events := [.logReturned call.ticket] }
    else
      some { next := .logGeneration call
             events := [.passed call.ticket call.level s.minLevel] }
  | .logGeneration call => some { next := .logCapture call s.queue.generation }
  | .logCapture call queueGeneration =>
    let entry : Entry Tid := ⟨call.ticket, call.record t now⟩
    if ok then
      some { next := .logPush queueGeneration entry
             effect := .call (.push (some queueGeneration) entry) }
    else some { next := .idle, events := [.logReturned call.ticket] }
  | .logPush _ entry =>
    match s.call (some t) with
    | some ⟨_, .ret _⟩ =>
      some { next := .idle, effect := .ret, events := [.logReturned entry.ticket] }
    | _ => none
  | .setLevel level => some { next := .idle, effect := .setMinLevel level }
  -- init
  | .initEnter config => if s.available then some { next := .initCheck config } else none
  | .initCheck config =>
    if s.running || config.rejected then some { next := .initReturn false }
    else some { next := .initJoin config }
  | .initJoin config =>
    match s.worker with
    | .absent => some { next := .initClose config 0 }
    | .finished _ => some { next := .initClose config 0, effect := .join }
    | _ => none
  | .initClose config k =>
    if k < s.sinks.length then some { next := .initClose config (k + 1), events := [.close k] }
    else some { next := .initBuild config, effect := .dropSinks }
  | .initBuild config =>
    if ok then some { next := .initReset config } else some { next := .initReturn false }
  | .initReset config =>
    some { next := .initResetting config
           effect := .call (.reset config.queueCapacity config.overflowPolicy) }
  | .initResetting config =>
    match s.call (some t) with
    | some ⟨_, .ret _⟩ => some { next := .initConfigure config, effect := .ret }
    | _ => none
  | .initConfigure config =>
    some { next := .initRunning, effect := .configure config, events := [.configured config] }
  | .initRunning => some { next := .initSpawn, effect := .setRunning true }
  | .initSpawn =>
    if ok then some { next := .initReturn true, effect := .spawn }
    else some { next := .initUnspawn }
  | .initUnspawn => some { next := .initCloseQueue, effect := .setRunning false }
  | .initCloseQueue => some { next := .initClosing, effect := .call .close }
  | .initClosing =>
    match s.call (some t) with
    | some ⟨_, .ret _⟩ => some { next := .initAbandon 0, effect := .ret }
    | _ => none
  | .initAbandon k =>
    if k < s.sinks.length then some { next := .initAbandon (k + 1), events := [.close k] }
    else some { next := .initReturn false, effect := .dropSinks }
  | .initReturn result => some { next := .idle, events := [.initReturned t result] }
  -- stop
  | .stopEnter => if s.available then some { next := .stopRunning } else none
  | .stopRunning => some { next := .stopCloseQueue, effect := .setRunning false }
  | .stopCloseQueue => some { next := .stopClosing, effect := .call .close }
  | .stopClosing =>
    match s.call (some t) with
    | some ⟨_, .ret _⟩ => some { next := .stopJoin, effect := .ret }
    | _ => none
  | .stopJoin =>
    match s.worker with
    | .absent => some { next := .stopSinks 0 }
    | .finished _ => some { next := .stopSinks 0, effect := .join }
    | _ => none
  | .stopSinks k =>
    if k < s.sinks.length then some { next := .stopSinks (k + 1), events := [.close k] }
    else some { next := .idle, effect := .dropSinks, events := [.stopReturned t] }

omit [Fintype Tid] [DecidableEq Tid] in
/-- Where the worker goes when `flushSinks` has flushed every sink. -/
def flushDone : FlushSite → Move (WorkerPc Tid) Tid
  | .idle => { next := .rearm .idle }
  | .batch nextFlush =>
    { next := if s.flushPolicy = .Periodic then .rearm (.batch nextFlush) else .loop nextFlush }
  | .last failed => { next := .finished failed, events := [.workerFinished failed] }

omit [Fintype Tid] [DecidableEq Tid] in
/-- The next step of `workerLoop`; `none` when the worker has to wait or has returned. -/
def workerStep (host : Host Tid) (ok : Bool) (now : ℤ) : Option (Move (WorkerPc Tid) Tid) :=
  match s.worker with
  | .absent => none
  | .reserve =>
    if ok then some { next := .loop (deadline now s.flushInterval) }
    else some { next := .caught false }
  | .loop nextFlush =>
    if s.flushPolicy = .Periodic then
      some { next := .popping nextFlush (some (waitTimeout now nextFlush))
             effect := .call (.popBatchFor s.writeBatchSize (waitTimeout now nextFlush)) }
    else
      some { next := .popping nextFlush none, effect := .call (.popBatch s.writeBatchSize) }
  | .popping nextFlush _ =>
    match s.call none with
    | some ⟨_, .ret (.values batch)⟩ =>
      some { next := .format nextFlush batch [] false, effect := .ret }
    | some ⟨_, .ret .threw⟩ => some { next := .caught false, effect := .ret }
    | some ⟨_, .ret _⟩ => some { next := .idle nextFlush, effect := .ret }
    | _ => none
  | .idle nextFlush =>
    if s.flushPolicy = .Periodic ∧ now ≥ nextFlush then some { next := .flushing .idle 0 false }
    else some { next := .checkClosed nextFlush }
  | .flushing site k false =>
    if k < s.sinks.length then some { next := .flushing site k true, events := [.flush k] }
    else some (s.flushDone site)
  | .flushing site k true =>
    if ok then some { next := .flushing site (k + 1) false, events := [.flushed k true] }
    else some { next := .caught (site matches .last _), events := [.flushed k false] }
  | .rearm .idle => some { next := .checkClosed (deadline now s.flushInterval) }
  | .rearm _ => some { next := .loop (deadline now s.flushInterval) }
  | .checkClosed nextFlush =>
    if s.queue.closed then some { next := .flushing (.last false) 0 false }
    else some { next := .loop nextFlush }
  | .format nextFlush batch formattedBatch flushForLevel =>
    match batch[formattedBatch.length]? with
    | some entry =>
      if ok then
        let (formatted, cache) := formatMessage host s.cache entry.record
        let flushForLevel := flushForLevel ||
          s.flushAtOrAbove.any fun level => decide (level.toInt ≤ entry.record.level.toInt)
        some { next := .format nextFlush batch (formattedBatch ++ [formatted]) flushForLevel
               effect := .setCache cache }
      else some { next := .caught false }
    | none => some { next := .write nextFlush 0 false batch formattedBatch flushForLevel }
  | .write nextFlush k false batch formattedBatch flushForLevel =>
    if k < s.sinks.length then
      some { next := .write nextFlush k true batch formattedBatch flushForLevel
             events := [.write k batch formattedBatch] }
    else some { next := .written nextFlush flushForLevel }
  | .write nextFlush k true batch formattedBatch flushForLevel =>
    if ok then
      some { next := .write nextFlush (k + 1) false batch formattedBatch flushForLevel
             events := [.wrote k true] }
    else some { next := .caught false, events := [.wrote k false] }
  | .written nextFlush flushForLevel =>
    if s.flushPolicy = .EveryBatch ∨ flushForLevel = true ∨
        (s.flushPolicy = .Periodic ∧ now ≥ nextFlush) then
      some { next := .flushing (.batch nextFlush) 0 false }
    else some { next := .loop nextFlush }
  | .caught final => some { next := .closeQueue final, effect := .setRunning false }
  | .closeQueue final => some { next := .closing final, effect := .call .close }
  | .closing final =>
    match s.call none with
    | some ⟨_, .ret _⟩ =>
      some { next := if final then .finished true else .flushing (.last true) 0 false
             effect := .ret
             events := if final then [.workerFinished true] else [] }
    | _ => none
  | .finished _ => none

/-- Carry out an effect on behalf of a thread. -/
def apply (who : Option Tid) : Effect Tid → Option (LoggerState Tid)
  | .skip => some s
  | .setRunning running => some { s with running }
  | .setMinLevel level => some { s with minLevel := level.toInt }
  | .setCache cache => some { s with cache }
  | .configure config =>
    some { s with
      minLevel := config.minLevel.toInt
      writeBatchSize := config.writeBatchSize
      flushPolicy := config.flushPolicy
      flushInterval := config.flushInterval
      flushAtOrAbove := config.flushAtOrAbove
      cache := { s.cache with hasCachedTimestampPrefix := false, cachedTimestampPrefix := [] }
      sinks := config.newSinks }
  | .dropSinks => some { s with sinks := [] }
  | .join => some { s with worker := .absent }
  | .spawn => some { s with worker := .reserve }
  | .call op => (s.queues.step (.call who op)).map fun r => { s with queues := r.1 }
  | .ret => (s.queues.step (.ret who)).map fun r => { s with queues := r.1 }

end LoggerState

/-- The first frame of a request. -/
def Request.frame (ticket : ℕ) : Request → Frame Tid
  | .log level file line message => .logEnter ⟨ticket, level, file, line, message, false⟩
  | .logStatic level file line message => .logEnter ⟨ticket, level, file, line, message, true⟩
  | .setLevel level => .setLevel level
  | .init config => .initEnter config
  | .stop => .stopEnter

variable [Fintype Tid] [DecidableEq Tid]

def LoggerState.step (host : Host Tid) (s : LoggerState Tid) :
    LoggerAction Tid → Option (LoggerState Tid × List (LoggerEvent Tid))
  | .begin t request =>
    match s.frames t with
    | .idle =>
      some ({ s with
          frames := Function.update s.frames t (request.frame s.tickets)
          tickets := s.tickets + 1 },
        if request = .stop then [.stopCalled t] else [])
    | _ => none
  | .app t ok now =>
    (s.appStep t ok now).bind fun m => (s.apply (some t) m.effect).map fun s' =>
      ({ s' with frames := Function.update s'.frames t m.next }, m.events)
  | .work ok now =>
    (s.workerStep host ok now).bind fun m => (s.apply none m.effect).map fun s' =>
      ({ s' with worker := m.next }, m.events)
  | .queue a =>
    if a.internal then
      (s.queues.step a).map fun r => ({ s with queues := r.1 }, r.2.map (.queue a.actor))
    else none

/-- The logger under every interleaving of its threads. -/
def loggerSystem (host : Host Tid) :
    TransitionSystem (LoggerState Tid) (LoggerAction Tid) (LoggerEvent Tid) where
  step := LoggerState.step host

/-! ## What a step can do -/

variable {s s' : LoggerState Tid} {t : Tid} {ok : Bool} {now : ℤ}

/-- All steps of an application thread, from frame to frame. -/
inductive AppMove (s : LoggerState Tid) (t : Tid) (ok : Bool) (now : ℤ) :
    Frame Tid → Frame Tid → Effect Tid → List (LoggerEvent Tid) → Prop
  | logEnter {call} (h : s.sharable = true) :
      AppMove s t ok now (.logEnter call) (.logRunning call) .skip []
  | sawRunning {call} (h : s.running = true) :
      AppMove s t ok now (.logRunning call) (.logLevel call) .skip [.sawRunning call.ticket]
  | notRunning {call} (h : s.running = false) :
      AppMove s t ok now (.logRunning call) .idle .skip [.logReturned call.ticket]
  | filtered {call} (h : call.level.toInt < s.minLevel) :
      AppMove s t ok now (.logLevel call) .idle .skip [.logReturned call.ticket]
  | passed {call} (h : s.minLevel ≤ call.level.toInt) :
      AppMove s t ok now (.logLevel call) (.logGeneration call) .skip
        [.passed call.ticket call.level s.minLevel]
  | logGeneration {call} :
      AppMove s t ok now (.logGeneration call) (.logCapture call s.queue.generation) .skip []
  | logCapture {call g} (h : ok = true) :
      AppMove s t ok now (.logCapture call g) (.logPush g ⟨call.ticket, call.record t now⟩)
        (.call (.push (some g) ⟨call.ticket, call.record t now⟩)) []
  | captureThrew {call g} (h : ok = false) :
      AppMove s t ok now (.logCapture call g) .idle .skip [.logReturned call.ticket]
  | logPush {g entry op r} (h : s.call (some t) = some ⟨op, .ret r⟩) :
      AppMove s t ok now (.logPush g entry) .idle .ret [.logReturned entry.ticket]
  | setLevel {level} : AppMove s t ok now (.setLevel level) .idle (.setMinLevel level) []
  | initEnter {config} (h : s.available = true) :
      AppMove s t ok now (.initEnter config) (.initCheck config) .skip []
  | initRejected {config} (h : s.running = true ∨ config.rejected = true) :
      AppMove s t ok now (.initCheck config) (.initReturn false) .skip []
  | initAccepted {config} (hr : s.running = false) (hc : config.rejected = false) :
      AppMove s t ok now (.initCheck config) (.initJoin config) .skip []
  | initAbsent {config} (h : s.worker = .absent) :
      AppMove s t ok now (.initJoin config) (.initClose config 0) .skip []
  | initJoin {config failed} (h : s.worker = .finished failed) :
      AppMove s t ok now (.initJoin config) (.initClose config 0) .join []
  | initClose {config k} (h : k < s.sinks.length) :
      AppMove s t ok now (.initClose config k) (.initClose config (k + 1)) .skip [.close k]
  | initClosed {config k} (h : s.sinks.length ≤ k) :
      AppMove s t ok now (.initClose config k) (.initBuild config) .dropSinks []
  | initBuild {config} (h : ok = true) :
      AppMove s t ok now (.initBuild config) (.initReset config) .skip []
  | buildThrew {config} (h : ok = false) :
      AppMove s t ok now (.initBuild config) (.initReturn false) .skip []
  | initReset {config} :
      AppMove s t ok now (.initReset config) (.initResetting config)
        (.call (.reset config.queueCapacity config.overflowPolicy)) []
  | initResetting {config op r} (h : s.call (some t) = some ⟨op, .ret r⟩) :
      AppMove s t ok now (.initResetting config) (.initConfigure config) .ret []
  | initConfigure {config} :
      AppMove s t ok now (.initConfigure config) .initRunning (.configure config)
        [.configured config]
  | initRunning : AppMove s t ok now .initRunning .initSpawn (.setRunning true) []
  | initSpawn (h : ok = true) :
      AppMove s t ok now .initSpawn (.initReturn true) .spawn []
  | spawnThrew (h : ok = false) : AppMove s t ok now .initSpawn .initUnspawn .skip []
  | initUnspawn : AppMove s t ok now .initUnspawn .initCloseQueue (.setRunning false) []
  | initCloseQueue : AppMove s t ok now .initCloseQueue .initClosing (.call .close) []
  | initClosing {op r} (h : s.call (some t) = some ⟨op, .ret r⟩) :
      AppMove s t ok now .initClosing (.initAbandon 0) .ret []
  | initAbandon {k} (h : k < s.sinks.length) :
      AppMove s t ok now (.initAbandon k) (.initAbandon (k + 1)) .skip [.close k]
  | initAbandoned {k} (h : s.sinks.length ≤ k) :
      AppMove s t ok now (.initAbandon k) (.initReturn false) .dropSinks []
  | initReturn {result} :
      AppMove s t ok now (.initReturn result) .idle .skip [.initReturned t result]
  | stopEnter (h : s.available = true) : AppMove s t ok now .stopEnter .stopRunning .skip []
  | stopRunning : AppMove s t ok now .stopRunning .stopCloseQueue (.setRunning false) []
  | stopCloseQueue : AppMove s t ok now .stopCloseQueue .stopClosing (.call .close) []
  | stopClosing {op r} (h : s.call (some t) = some ⟨op, .ret r⟩) :
      AppMove s t ok now .stopClosing .stopJoin .ret []
  | stopAbsent (h : s.worker = .absent) :
      AppMove s t ok now .stopJoin (.stopSinks 0) .skip []
  | stopJoin {failed} (h : s.worker = .finished failed) :
      AppMove s t ok now .stopJoin (.stopSinks 0) .join []
  | stopSinks {k} (h : k < s.sinks.length) :
      AppMove s t ok now (.stopSinks k) (.stopSinks (k + 1)) .skip [.close k]
  | stopReturn {k} (h : s.sinks.length ≤ k) :
      AppMove s t ok now (.stopSinks k) .idle .dropSinks [.stopReturned t]

omit [DecidableEq Tid] in
theorem appStep_move {m : Move (Frame Tid) Tid} (h : s.appStep t ok now = some m) :
    AppMove s t ok now (s.frames t) m.next m.effect m.events := by
  unfold LoggerState.appStep at h
  split at h <;> rename_i hframe <;> rw [hframe]
  all_goals
    try split at h
  all_goals
    first
      | cases h; done
      | cases h
        constructor <;> first | assumption | simp_all

/-- All steps of the worker. -/
inductive WorkerMove (host : Host Tid) (s : LoggerState Tid) (ok : Bool) (now : ℤ) :
    WorkerPc Tid → WorkerPc Tid → Effect Tid → List (LoggerEvent Tid) → Prop
  | reserve (h : ok = true) :
      WorkerMove host s ok now .reserve (.loop (deadline now s.flushInterval)) .skip []
  | reserveThrew (h : ok = false) : WorkerMove host s ok now .reserve (.caught false) .skip []
  | popBatchFor {nf} (h : s.flushPolicy = .Periodic) :
      WorkerMove host s ok now (.loop nf) (.popping nf (some (waitTimeout now nf)))
        (.call (.popBatchFor s.writeBatchSize (waitTimeout now nf))) []
  | popBatch {nf} (h : s.flushPolicy ≠ .Periodic) :
      WorkerMove host s ok now (.loop nf) (.popping nf none)
        (.call (.popBatch s.writeBatchSize)) []
  | took {nf timeout op batch} (h : s.call none = some ⟨op, .ret (.values batch)⟩) :
      WorkerMove host s ok now (.popping nf timeout) (.format nf batch [] false) .ret []
  | popThrew {nf timeout op} (h : s.call none = some ⟨op, .ret .threw⟩) :
      WorkerMove host s ok now (.popping nf timeout) (.caught false) .ret []
  | tookNothing {nf timeout op r} (h : s.call none = some ⟨op, .ret r⟩)
      (hr : ∀ batch, r ≠ .values batch) (hthrew : r ≠ .threw) :
      WorkerMove host s ok now (.popping nf timeout) (.idle nf) .ret []
  | idleFlush {nf} (h : s.flushPolicy = .Periodic ∧ now ≥ nf) :
      WorkerMove host s ok now (.idle nf) (.flushing .idle 0 false) .skip []
  | idle {nf} (h : ¬(s.flushPolicy = .Periodic ∧ now ≥ nf)) :
      WorkerMove host s ok now (.idle nf) (.checkClosed nf) .skip []
  | flush {site k} (h : k < s.sinks.length) :
      WorkerMove host s ok now (.flushing site k false) (.flushing site k true) .skip [.flush k]
  | idleFlushed {k} (h : s.sinks.length ≤ k) :
      WorkerMove host s ok now (.flushing .idle k false) (.rearm .idle) .skip []
  | batchFlushed {nf k} (h : s.sinks.length ≤ k) (hp : s.flushPolicy = .Periodic) :
      WorkerMove host s ok now (.flushing (.batch nf) k false) (.rearm (.batch nf)) .skip []
  | batchFlushedOnly {nf k} (h : s.sinks.length ≤ k) (hp : s.flushPolicy ≠ .Periodic) :
      WorkerMove host s ok now (.flushing (.batch nf) k false) (.loop nf) .skip []
  | lastFlushed {failed k} (h : s.sinks.length ≤ k) :
      WorkerMove host s ok now (.flushing (.last failed) k false) (.finished failed) .skip
        [.workerFinished failed]
  | flushed {site k} (h : ok = true) :
      WorkerMove host s ok now (.flushing site k true) (.flushing site (k + 1) false) .skip
        [.flushed k true]
  | flushThrew {site k} (h : ok = false) (hsite : ∀ failed, site ≠ .last failed) :
      WorkerMove host s ok now (.flushing site k true) (.caught false) .skip [.flushed k false]
  | lastFlushThrew {failed k} (h : ok = false) :
      WorkerMove host s ok now (.flushing (.last failed) k true) (.caught true) .skip
        [.flushed k false]
  | rearmIdle :
      WorkerMove host s ok now (.rearm .idle) (.checkClosed (deadline now s.flushInterval)) .skip []
  | rearm {site} (h : site ≠ .idle) :
      WorkerMove host s ok now (.rearm site) (.loop (deadline now s.flushInterval)) .skip []
  | closed {nf} (h : s.queue.closed = true) :
      WorkerMove host s ok now (.checkClosed nf) (.flushing (.last false) 0 false) .skip []
  | notClosed {nf} (h : s.queue.closed = false) :
      WorkerMove host s ok now (.checkClosed nf) (.loop nf) .skip []
  | format {nf batch texts flag entry} (h : batch[texts.length]? = some entry) (hok : ok = true) :
      WorkerMove host s ok now (.format nf batch texts flag)
        (.format nf batch (texts ++ [(formatMessage host s.cache entry.record).1])
          (flag || s.flushAtOrAbove.any fun level => decide (level.toInt ≤ entry.record.level.toInt)))
        (.setCache (formatMessage host s.cache entry.record).2) []
  | formatThrew {nf batch texts flag} (h : texts.length < batch.length) (hok : ok = false) :
      WorkerMove host s ok now (.format nf batch texts flag) (.caught false) .skip []
  | formatted {nf batch texts flag} (h : batch.length ≤ texts.length) :
      WorkerMove host s ok now (.format nf batch texts flag) (.write nf 0 false batch texts flag)
        .skip []
  | write {nf k batch texts flag} (h : k < s.sinks.length) :
      WorkerMove host s ok now (.write nf k false batch texts flag)
        (.write nf k true batch texts flag) .skip [.write k batch texts]
  | written {nf k batch texts flag} (h : s.sinks.length ≤ k) :
      WorkerMove host s ok now (.write nf k false batch texts flag) (.written nf flag) .skip []
  | wrote {nf k batch texts flag} (h : ok = true) :
      WorkerMove host s ok now (.write nf k true batch texts flag)
        (.write nf (k + 1) false batch texts flag) .skip [.wrote k true]
  | writeThrew {nf k batch texts flag} (h : ok = false) :
      WorkerMove host s ok now (.write nf k true batch texts flag) (.caught false) .skip
        [.wrote k false]
  | batchFlush {nf flag} (h : s.flushPolicy = .EveryBatch ∨ flag = true ∨
        (s.flushPolicy = .Periodic ∧ now ≥ nf)) :
      WorkerMove host s ok now (.written nf flag) (.flushing (.batch nf) 0 false) .skip []
  | noFlush {nf flag} (h : ¬(s.flushPolicy = .EveryBatch ∨ flag = true ∨
        (s.flushPolicy = .Periodic ∧ now ≥ nf))) :
      WorkerMove host s ok now (.written nf flag) (.loop nf) .skip []
  | caught {final} :
      WorkerMove host s ok now (.caught final) (.closeQueue final) (.setRunning false) []
  | closeQueue {final} :
      WorkerMove host s ok now (.closeQueue final) (.closing final) (.call .close) []
  | closing {op r} (h : s.call none = some ⟨op, .ret r⟩) :
      WorkerMove host s ok now (.closing false) (.flushing (.last true) 0 false) .ret []
  | closingFinal {op r} (h : s.call none = some ⟨op, .ret r⟩) :
      WorkerMove host s ok now (.closing true) (.finished true) .ret [.workerFinished true]

omit [Fintype Tid] [DecidableEq Tid] in
theorem flushDone_move {host : Host Tid} {site : FlushSite} {k : ℕ} (h : s.sinks.length ≤ k) :
    WorkerMove host s ok now (.flushing site k false) (s.flushDone site).next
      (s.flushDone site).effect (s.flushDone site).events := by
  cases site with
  | idle => exact .idleFlushed h
  | batch nf =>
    by_cases hp : s.flushPolicy = .Periodic
    · simpa [LoggerState.flushDone, hp] using WorkerMove.batchFlushed h hp
    · simpa [LoggerState.flushDone, hp] using WorkerMove.batchFlushedOnly h hp
  | last failed => exact .lastFlushed h

omit [Fintype Tid] [DecidableEq Tid] in
theorem workerStep_move {host : Host Tid} {m : Move (WorkerPc Tid) Tid}
    (h : s.workerStep host ok now = some m) :
    WorkerMove host s ok now s.worker m.next m.effect m.events := by
  unfold LoggerState.workerStep at h
  split at h <;> rename_i hpc <;> rw [hpc]
  case h_6 site k =>
    split_ifs at h with hk <;> cases h
    · exact .flush hk
    · exact flushDone_move (not_lt.mp hk)
  case h_7 site k =>
    split_ifs at h with hok <;> cases h
    · exact .flushed hok
    · have hok' : ok = false := by simpa using hok
      cases site with
      | last failed => exact .lastFlushThrew hok'
      | _ => exact .flushThrew hok' (by simp)
  case h_11 nf batch texts flag =>
    split at h
    · rename_i entry hentry
      split_ifs at h with hok <;> cases h
      · exact .format hentry hok
      · exact .formatThrew (List.getElem?_eq_some_iff.mp hentry).1 (by simpa using hok)
    · cases h
      exact .formatted (List.getElem?_eq_none_iff.mp ‹_›)
  case h_17 final =>
    split at h <;> cases h
    cases final
    · exact .closing ‹_›
    · exact .closingFinal ‹_›
  all_goals
    try split at h
  all_goals
    first
      | cases h; done
      | cases h
        constructor <;> first | assumption | simp_all

/-- All steps of the system. -/
inductive LoggerMove (host : Host Tid) (s : LoggerState Tid) :
    LoggerAction Tid → LoggerState Tid → List (LoggerEvent Tid) → Prop
  | begin {t : Tid} (request : Request) (hidle : s.frames t = .idle) :
      LoggerMove host s (.begin t request)
        { s with
          frames := Function.update s.frames t (request.frame s.tickets)
          tickets := s.tickets + 1 }
        (if request = .stop then [.stopCalled t] else [])
  | app {t : Tid} {ok : Bool} {now : ℤ} {next : Frame Tid} {effect : Effect Tid}
      {events : List (LoggerEvent Tid)} {s' : LoggerState Tid}
      (hmove : AppMove s t ok now (s.frames t) next effect events)
      (heffect : s.apply (some t) effect = some s') :
      LoggerMove host s (.app t ok now)
        { s' with frames := Function.update s'.frames t next } events
  | work {ok : Bool} {now : ℤ} {next : WorkerPc Tid} {effect : Effect Tid}
      {events : List (LoggerEvent Tid)} {s' : LoggerState Tid}
      (hmove : WorkerMove host s ok now s.worker next effect events)
      (heffect : s.apply none effect = some s') :
      LoggerMove host s (.work ok now) { s' with worker := next } events
  | queue {a : QueueAction (Entry Tid) (Option Tid)} {queues : QueueState (Entry Tid) (Option Tid)}
      {es : List (QueueEvent (Entry Tid))} (ha : a.internal = true)
      (hstep : s.queues.step a = some (queues, es)) :
      LoggerMove host s (.queue a) { s with queues := queues } (es.map (.queue a.actor))

theorem loggerStep_move {host : Host Tid} {a : LoggerAction Tid} {es : List (LoggerEvent Tid)}
    (h : s.step host a = some (s', es)) : LoggerMove host s a s' es := by
  cases a with
  | begin t request =>
    simp only [LoggerState.step] at h
    split at h
    · cases h
      exact .begin request ‹_›
    · cases h
  | app t ok now =>
    simp only [LoggerState.step, Option.bind_eq_some_iff, Option.map_eq_some_iff] at h
    obtain ⟨m, hm, s₁, heffect, h⟩ := h
    cases h
    exact .app (appStep_move hm) heffect
  | work ok now =>
    simp only [LoggerState.step, Option.bind_eq_some_iff, Option.map_eq_some_iff] at h
    obtain ⟨m, hm, s₁, heffect, h⟩ := h
    cases h
    exact .work (workerStep_move hm) heffect
  | queue a =>
    simp only [LoggerState.step] at h
    split_ifs at h with ha
    simp only [Option.map_eq_some_iff] at h
    obtain ⟨⟨queues, qes⟩, hstep, h⟩ := h
    cases h
    exact .queue ha hstep

end CppLogger
