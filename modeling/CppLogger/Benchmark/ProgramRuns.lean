import CppLogger.Benchmark.AcceptedOptions
import CppLogger.Benchmark.Program
import CppLogger.Foundation.Statements

/-!
# The runs of the benchmark program

However a run ends, it leaves a trace of one of five shapes: the logger has been stopped, the
threads have been released, and the directory has been removed unless it is kept. The runs
follow one another in the order of the profiles until one of them throws.
-/

namespace CppLogger

open Paths Statement

variable {D : Type} {d : FloatingPoint D} {env : RunEnvironment} {options : BenchmarkOptions}
variable {profile : BenchmarkProfile} {phase : RunPhase} {runIndex : ℕ} {call : RunCall}

/-! ## What a run leaves behind -/

def cleanupEvents (options : BenchmarkOptions) (context : RunContext) : List RunEvent :=
  if options.common.keepLogs then [] else [.removed context.outputDirectory]

/-- What one run does when it has the sequence number, and what it returns or throws. -/
inductive RunTrace (d : FloatingPoint D) (env : RunEnvironment) (options : BenchmarkOptions)
    (call : RunCall) (sequence : ℕ) : List RunEvent → Except StdException (RunMetrics D) → Prop
  | noContext {e : HarnessError}
      (he : (contextCall env options call).buildContext sequence = .error e) :
      RunTrace d env options call sequence [] (.error e.toStd)
  | notInitialized {context : RunContext}
      (hcontext : (contextCall env options call).buildContext sequence =
        .ok context) (hdown : env.comesUp = false) :
      RunTrace d env options call sequence
        ([.created context.outputDirectory, .stopped, .initialized false] ++
          cleanupEvents options context)
        (.error ⟨"unable to initialize cpp_logger".toList⟩)
  | notStarted {context : RunContext} {e : StdException}
      (hcontext : (contextCall env options call).buildContext sequence =
        .ok context) (hup : env.comesUp = true) (he : env.producers = .error e) :
      RunTrace d env options call sequence
        ([.created context.outputDirectory, .stopped, .initialized true, .started false,
          .stopped] ++ cleanupEvents options context) (.error e)
  | notVerified {context : RunContext} {timing : ProducerTiming} {e : HarnessError}
      (hcontext : (contextCall env options call).buildContext sequence =
        .ok context) (hup : env.comesUp = true) (htiming : env.producers = .ok timing)
      (he : finalizeRun d context timing env.finished (some env.dropped) env.listing = .error e) :
      RunTrace d env options call sequence
        ([.created context.outputDirectory, .stopped, .initialized true, .started true, .stopped,
          .released, .inspected context.outputDirectory, .released] ++
          cleanupEvents options context) (.error e.toStd)
  | verified {context : RunContext} {timing : ProducerTiming} {metrics : RunMetrics D}
      (hcontext : (contextCall env options call).buildContext sequence =
        .ok context) (hup : env.comesUp = true) (htiming : env.producers = .ok timing)
      (hmetrics : finalizeRun d context timing env.finished (some env.dropped) env.listing =
        .ok metrics) :
      RunTrace d env options call sequence
        ([.created context.outputDirectory, .stopped, .initialized true, .started true, .stopped,
          .released, .inspected context.outputDirectory] ++ cleanupEvents options context ++
          [.released]) (.ok metrics)

/-- The state after a run. -/
structure Follows (s : ProgramState) (call : RunCall) (es : List RunEvent) (t : ProgramState) :
    Prop where
  calls : t.calls = s.calls ++ [call]
  events : t.events = s.events ++ es
  sequence : t.sequence = s.sequence + 1
  stdout : t.stdout = s.stdout
  stderr : ∃ warnings, t.stderr = s.stderr ++ warnings

/-- A statement adds some events and perhaps a warning. -/
structure Adds (s : ProgramState) (es : List RunEvent) (t : ProgramState) : Prop where
  calls : t.calls = s.calls
  events : t.events = s.events ++ es
  sequence : t.sequence = s.sequence
  stdout : t.stdout = s.stdout
  stderr : ∃ warnings, t.stderr = s.stderr ++ warnings

theorem Adds.trans {s t u : ProgramState} {es fs : List RunEvent} (h : Adds s es t)
    (h' : Adds t fs u) : Adds s (es ++ fs) u where
  calls := h'.calls.trans h.calls
  events := by rw [h'.events, h.events, List.append_assoc]
  sequence := h'.sequence.trans h.sequence
  stdout := h'.stdout.trans h.stdout
  stderr := by
    obtain ⟨warnings, hwarnings⟩ := h.stderr
    obtain ⟨warnings', hwarnings'⟩ := h'.stderr
    exact ⟨warnings ++ warnings', by rw [hwarnings', hwarnings, List.append_assoc]⟩

/-! ## The statements -/

/-- The configuration of a run is one that the logger accepts. -/
theorem runConfig_accepted (h : options.Accepted) (hprofile : profile ∈ profiles)
    (context : RunContext) : (runConfig options profile context).rejected = false := by
  have hcapacity : queueCapacity options ≠ 0 := by
    have hpos := Nat.mul_pos options.common.threadCount_pos options.queueCapacityPerProducer_pos
    rw [queueCapacity, word64_of_lt h.capacity]
    omega
  have hbatch := options.writeBatchSize_pos.ne'
  have hinterval := options.common.flushInterval_pos
  have hpolicy : isValidOverflowPolicy profile.overflowPolicy = true := by
    simp only [profiles, List.mem_cons, List.not_mem_nil, or_false] at hprofile
    rcases hprofile with rfl | rfl | rfl <;> rfl
  have hflush : isValidFlushPolicy (loggerFlushPolicy options.common.flushMode) = true := by
    cases options.common.flushMode <;> rfl
  have hfile : (wordBound - 1) / 2 ≠ 0 := by decide
  obtain ⟨front, hfront⟩ := suffix_joinPath context.outputDirectory "cpp_logger".toList
  have hpath : joinPath context.outputDirectory "cpp_logger".toList ≠ [] := by
    rw [← hfront]
    exact List.append_ne_nil_of_right_ne_nil _ (List.cons_ne_nil _ _)
  unfold runConfig
  generalize joinPath context.outputDirectory "cpp_logger".toList = path at hpath
  simp [LoggerConfig.rejected, hcapacity, hbatch, hpolicy, hflush, hfile, hpath,
    isValidLogLevel, isValidConsoleStream]
  omega

theorem makeRunContext_eq (h : options.Accepted) (sequence : ℕ) :
    (contextCall env options call).makeRunContext sequence =
      ((contextCall env options call).buildContext (sequence + 1),
        sequence + 1) := by
  have hvalid : validateCommonOptions options.common.toCommonOptions = .ok () :=
    (validateCommonOptions_ok_iff _).mpr ⟨h.output, h.messages, h.interval⟩
  unfold ContextCall.makeRunContext contextCall
  rw [hvalid]

/-- The state after some more events. -/
def ProgramState.append (s : ProgramState) (es : List RunEvent) : ProgramState :=
  { s with events := s.events ++ es }

theorem note_run (event : RunEvent) (s : ProgramState) :
    note event s = .ok () (s.append [event]) := rfl

theorem setInitialized_run (initialized : Bool) (s : ProgramState) :
    setInitialized initialized s = .ok () { s with initialized } := rfl

/-- What the directory's removal adds to the error output. -/
def removalWarning (env : RunEnvironment) (options : BenchmarkOptions) : Text :=
  if options.common.keepLogs then []
  else
    match env.removeError with
    | none => []
    | some message =>
      "warning: unable to remove benchmark logs: ".toList ++ message ++ ['\n']

def cleaned (env : RunEnvironment) (options : BenchmarkOptions) (context : RunContext)
    (s : ProgramState) : ProgramState :=
  { s.append (cleanupEvents options context) with
    stderr := s.stderr ++ removalWarning env options }

theorem cleanupRunDirectory_run (context : RunContext) (s : ProgramState) :
    cleanupRunDirectory env context options.common.keepLogs s =
      .ok () (cleaned env options context s) := by
  unfold cleanupRunDirectory cleaned cleanupEvents removalWarning
  cases options.common.keepLogs with
  | true =>
    simp only [ProgramState.append, if_true, List.append_nil]
    rfl
  | false =>
    simp only [Bool.false_eq_true, if_false]
    cases env.removeError with
    | none =>
      simp only [List.append_nil]
      rfl
    | some message =>
      simp only [← List.append_assoc]
      rfl

theorem finishRun_ok {context : RunContext} {timing : ProducerTiming} {metrics : RunMetrics D}
    (h : finalizeRun d context timing env.finished (some env.dropped) env.listing = .ok metrics)
    (s : ProgramState) :
    finishRun d env options context timing s =
      .ok metrics (cleaned env options context { s with
        initialized := false
        events := s.events ++ [.stopped] ++ [.released] ++
          [.inspected context.outputDirectory] }) := by
  unfold finishRun
  rw [bind_ok (note_run _ _), bind_ok (setInitialized_run _ _), bind_ok (note_run _ _),
    bind_ok (note_run _ _), h]
  exact bind_ok (cleanupRunDirectory_run context _) _

theorem finishRun_error {context : RunContext} {timing : ProducerTiming} {e : HarnessError}
    (h : finalizeRun d context timing env.finished (some env.dropped) env.listing = .error e)
    (s : ProgramState) :
    finishRun d env options context timing s =
      .error e.toStd { s with
        initialized := false
        events := s.events ++ [.stopped] ++ [.released] ++
          [.inspected context.outputDirectory] } := by
  unfold finishRun
  rw [bind_ok (note_run _ _), bind_ok (setInitialized_run _ _), bind_ok (note_run _ _),
    bind_ok (note_run _ _), h]
  rfl

theorem initLogger_run {context : RunContext} (h : options.Accepted)
    (hprofile : profile ∈ profiles) (s : ProgramState) :
    initLogger env (runConfig options profile context) s =
      .ok env.comesUp (s.append [.initialized env.comesUp]) := by
  unfold initLogger
  rw [runConfig_accepted h hprofile]
  rfl

theorem adds_append (s : ProgramState) (es : List RunEvent) : Adds s es (s.append es) :=
  ⟨rfl, rfl, rfl, rfl, [], (List.append_nil _).symm⟩

theorem adds_cleaned (env : RunEnvironment) (options : BenchmarkOptions)
    (context : RunContext) (s : ProgramState) :
    Adds s (cleanupEvents options context) (cleaned env options context s) :=
  ⟨rfl, rfl, rfl, rfl, _, rfl⟩

theorem startProducers_ok {timing : ProducerTiming} (h : env.producers = .ok timing)
    (s : ProgramState) : startProducers env s = .ok timing (s.append [.started true]) := by
  unfold startProducers
  rw [h]
  rfl

theorem startProducers_error {e : StdException} (h : env.producers = .error e)
    (s : ProgramState) : startProducers env s = .error e (s.append [.started false]) := by
  unfold startProducers
  rw [h]
  rfl

/-- What the handler of `runOnce` is left to do: stop a logger that is still running. -/
def handlerEvents (initialized : Bool) : List RunEvent := if initialized then [.stopped] else []

theorem attemptRun_ends (haccepted : options.Accepted) (hprofile : profile ∈ profiles)
    {context : RunContext} {sequence : ℕ}
    (hcontext : (contextCall env options call).buildContext sequence =
      .ok context) (s : ProgramState) (hs : s.initialized = false) :
    Ends
      (fun metrics t => ∃ es, Adds s es t ∧
        RunTrace d env options call sequence
          (.created context.outputDirectory :: es) (.ok metrics))
      (fun e t => ∃ es, Adds s es t ∧
        RunTrace d env options call sequence
          (.created context.outputDirectory :: es ++ handlerEvents t.initialized ++
            cleanupEvents options context) (.error e))
      (attemptRun d env options profile context s) := by
  unfold attemptRun
  rw [bind_ok (note_run _ _), bind_ok (initLogger_run haccepted hprofile _)]
  have hinit : Adds s ([.stopped] ++ [.initialized env.comesUp])
      ((s.append [.stopped]).append [.initialized env.comesUp]) :=
    (adds_append s _).trans (adds_append _ _)
  cases hup : env.comesUp with
  | false =>
    rw [hup] at hinit
    refine .error ⟨_, hinit, ?_⟩
    simp only [ProgramState.append, hs]
    exact .notInitialized hcontext hup
  | true =>
    rw [hup] at hinit
    -- The logger runs from here on, and `initialized` says so.
    generalize hu : (s.append [.stopped]).append [.initialized true] = u at hinit
    have hrunning : Adds s ([.stopped] ++ [.initialized true]) { u with initialized := true } :=
      ⟨hinit.calls, hinit.events, hinit.sequence, hinit.stdout, hinit.stderr⟩
    change Ends _ _ ((setInitialized true >>= fun _ => startProducers env >>= fun timing =>
      tryFinally (finishRun d env options context timing) (note .released)) u)
    rw [bind_ok (setInitialized_run true u)]
    cases hproducers : env.producers with
    | error e =>
      rw [bind_error (startProducers_error hproducers _)]
      exact .error ⟨_, hrunning.trans (adds_append _ _), .notStarted hcontext hup hproducers⟩
    | ok timing =>
      rw [bind_ok (startProducers_ok hproducers _)]
      have hstarted := hrunning.trans (adds_append _ [.started true])
      generalize ({ u with initialized := true } : ProgramState).append [.started true] = v
        at hstarted
      have hinspected : Adds v ([.stopped] ++ [.released] ++ [.inspected context.outputDirectory])
          { v with
            initialized := false
            events := v.events ++ [.stopped] ++ [.released] ++
              [.inspected context.outputDirectory] } :=
        ⟨rfl, by simp, rfl, rfl, [], (List.append_nil _).symm⟩
      cases hfinal : finalizeRun d context timing env.finished (some env.dropped) env.listing with
      | error e =>
        rw [finally_error (finishRun_error hfinal v) (note_run .released _)]
        refine .error ⟨_, (hstarted.trans hinspected).trans (adds_append _ _), ?_⟩
        exact .notVerified hcontext hup hproducers hfinal
      | ok metrics =>
        rw [finally_ok (finishRun_ok hfinal v) (note_run .released _)]
        refine .ok ⟨_, ((hstarted.trans hinspected).trans (adds_cleaned env options context _)).trans
          (adds_append _ _), ?_⟩
        exact .verified hcontext hup hproducers hfinal

theorem failRun_run (env : RunEnvironment) (options : BenchmarkOptions) (context : RunContext)
    (e : StdException) (s : ProgramState) :
    ∃ t, failRun (D := D) env options context e s = .error e t ∧
      Adds s (handlerEvents s.initialized ++ cleanupEvents options context) t := by
  unfold failRun
  rw [get_bind]
  cases hinitialized : s.initialized with
  | true =>
    refine ⟨_, (bind_ok (note_run .stopped s) _).trans
      (bind_ok (cleanupRunDirectory_run context _) _), ?_⟩
    exact (adds_append s [.stopped]).trans (adds_cleaned env options context _)
  | false =>
    exact ⟨_, bind_ok (cleanupRunDirectory_run context s) _, adds_cleaned env options context s⟩

theorem makeContext_run (env : RunEnvironment) (call : RunCall) (h : options.Accepted)
    (s : ProgramState) :
    makeContext (contextCall env options call) s =
      match (contextCall env options call).buildContext (s.sequence + 1) with
      | .ok context => .ok context
          ({ s with sequence := s.sequence + 1 }.append [.created context.outputDirectory])
      | .error e => .error e.toStd { s with sequence := s.sequence + 1 } := by
  unfold makeContext
  rw [get_bind, makeRunContext_eq h]
  cases (contextCall env options call).buildContext (s.sequence + 1) <;> rfl

/-- A run leaves a trace, and the number of the next run. -/
theorem runOnce_ends (haccepted : options.Accepted) (hprofile : profile ∈ profiles)
    (hcall : call = ⟨profile.id, phase, runIndex⟩) (s : ProgramState) :
    Ends
      (fun metrics t => ∃ es, Follows s call es t ∧
        RunTrace d env options call (s.sequence + 1) es (.ok metrics))
      (fun e t => ∃ es, Follows s call es t ∧
        RunTrace d env options call (s.sequence + 1) es (.error e))
      (runOnce d env options profile phase runIndex s) := by
  unfold runOnce
  rw [← hcall, modify_bind]
  generalize hu : ({ s with calls := s.calls ++ [call] } : ProgramState) = u
  have hsequence : s.sequence = u.sequence := by rw [← hu]
  have hfollows : ∀ {es t}, Adds { u with sequence := u.sequence + 1 } es t →
      Follows s call es t := by
    intro es t h
    rw [← hu] at h
    exact ⟨h.calls, h.events, h.sequence, h.stdout, h.stderr⟩
  have hmake := makeContext_run env call haccepted u
  rw [hsequence]
  cases hcontext :
      (contextCall env options call).buildContext (u.sequence + 1) with
  | error e =>
    rw [hcontext] at hmake
    rw [bind_error hmake]
    exact .error ⟨[], hfollows ⟨rfl, (List.append_nil _).symm, rfl, rfl, [],
      (List.append_nil _).symm⟩, .noContext hcontext⟩
  | ok context =>
    rw [hcontext] at hmake
    rw [bind_ok hmake, bind_ok (setInitialized_run _ _)]
    generalize hv : ({ ({ u with sequence := u.sequence + 1 } : ProgramState).append
      [.created context.outputDirectory] with initialized := false } : ProgramState) = v
    have hcreated : Adds { u with sequence := u.sequence + 1 } [.created context.outputDirectory]
        v := by
      rw [← hv]
      exact ⟨rfl, rfl, rfl, rfl, [], (List.append_nil _).symm⟩
    have hattempt := attemptRun_ends (d := d) haccepted hprofile hcontext v (by rw [← hv])
    refine (hattempt.mono (fun metrics t hok => ?_) fun e t herror => herror).tryCatch
      fun e t herror => ?_
    · obtain ⟨es, hadds, htrace⟩ := hok
      exact ⟨_, hfollows (hcreated.trans hadds), htrace⟩
    · obtain ⟨es, hadds, htrace⟩ := herror
      obtain ⟨u', hfail, hcleaned⟩ := failRun_run (D := D) env options context e t
      rw [hfail]
      refine .error ⟨_, hfollows (hcreated.trans (hadds.trans hcleaned)), ?_⟩
      simpa using htrace

/-! ## The runs of a profile -/

/-- The counters of the loops can pass their bounds, so that the loops end. -/
structure BenchmarkOptions.Counts (options : BenchmarkOptions) : Prop where
  warmups : options.common.warmupRuns + 1 < wordBound
  measured : options.common.measuredRuns + 1 < wordBound

/-- A loop whose counter does not overflow runs through its numbers. -/
theorem runLoop_eq {m : Type → Type} [Monad m] [LawfulMonad m] {β : Type} {runs : ℕ}
    (body : ℕ → m β) (h : runs + 1 < wordBound) {count fuel runIndex : ℕ}
    (hcount : runIndex + count = runs + 1) (hfuel : count < fuel) :
    runLoop runs body fuel runIndex = (List.range' runIndex count).mapM body := by
  induction count generalizing fuel runIndex with
  | zero =>
    obtain ⟨fuel, rfl⟩ := Nat.exists_eq_succ_of_ne_zero (Nat.ne_of_gt hfuel)
    rw [runLoop, if_neg (by omega), List.range'_zero, List.mapM_nil]
  | succ count ih =>
    obtain ⟨fuel, rfl⟩ := Nat.exists_eq_succ_of_ne_zero (Nat.ne_of_gt (Nat.zero_lt_of_lt hfuel))
    have hnext : word64 (runIndex + 1) = runIndex + 1 := word64_of_lt (by omega)
    rw [runLoop, if_pos (by omega), hnext, ih (by omega) (by omega), List.range'_succ,
      List.mapM_cons]

theorem runProfile_eq (hcounts : options.Counts) (reserve : ℕ → Program Unit)
    (run : RunPhase → ℕ → Program (RunMetrics D)) :
    runProfile options.common reserve run = (do
      let _ ← (List.range' 1 options.common.warmupRuns).mapM (run .Warmup)
      reserve options.common.measuredRuns
      (List.range' 1 options.common.measuredRuns).mapM (run .Measured)) := by
  have hwarmups := hcounts.warmups
  have hmeasured := hcounts.measured
  rw [runProfile, runLoop_eq _ hwarmups (Nat.add_comm _ _) (by omega),
    runLoop_eq _ hmeasured (Nat.add_comm _ _) (by omega)]

/-- A run that is over. -/
structure RunLog (D : Type) where
  call : RunCall
  events : List RunEvent
  result : Except StdException (RunMetrics D)

def RunLog.measured (log : RunLog D) : Bool := decide (log.call.phase = .Measured)

variable {envs : ℕ → RunEnvironment}

/-- The runs so far, one after the other, each in its environment. -/
structure Logged (d : FloatingPoint D) (envs : ℕ → RunEnvironment) (options : BenchmarkOptions)
    (logs : List (RunLog D)) (s : ProgramState) : Prop where
  traces : ∀ k log, logs[k]? = some log →
    RunTrace d (envs k) options log.call (k + 1) log.events log.result
  calls : s.calls = logs.map RunLog.call
  events : s.events = logs.flatMap RunLog.events
  sequence : s.sequence = logs.length

theorem Logged.step {logs : List (RunLog D)} {s t : ProgramState} {es : List RunEvent}
    {result : Except StdException (RunMetrics D)} (h : Logged d envs options logs s)
    (hfollows : Follows s call es t)
    (htrace : RunTrace d (envs s.calls.length) options call (s.sequence + 1) es
      result) :
    Logged d envs options (logs ++ [⟨call, es, result⟩]) t where
  traces k log hk := by
    rw [h.calls, List.length_map, h.sequence] at htrace
    rcases Nat.lt_or_ge k logs.length with hless | hge
    · rw [List.getElem?_append_left hless] at hk
      exact h.traces k log hk
    · rw [List.getElem?_append_right hge] at hk
      cases hsub : k - logs.length with
      | zero =>
        rw [hsub] at hk
        cases hk
        have hlast : k = logs.length := by omega
        rw [hlast]
        exact htrace
      | succ n =>
        rw [hsub] at hk
        cases hk
  calls := by
    rw [hfollows.calls, h.calls, List.map_append]
    rfl
  events := by simp [hfollows.events, h.events]
  sequence := by simp [hfollows.sequence, h.sequence]

def phaseCalls (profile : BenchmarkProfile) (phase : RunPhase) (indices : List ℕ) : List RunCall :=
  indices.map fun runIndex => ⟨profile.id, phase, runIndex⟩

/-- The runs of a profile. -/
def planOf (options : BenchmarkOptions) (profile : BenchmarkProfile) : List RunCall :=
  phaseCalls profile .Warmup (List.range' 1 options.common.warmupRuns) ++
    phaseCalls profile .Measured (List.range' 1 options.common.measuredRuns)

def selected (options : BenchmarkOptions) : List BenchmarkProfile :=
  profiles.filter fun profile => shouldRunProfile options.common profile.id

/-- All runs of the program, in their order. -/
def plan (options : BenchmarkOptions) : List RunCall :=
  (selected options).flatMap (planOf options)

/-! ## The steps of the program -/

/-- What a run returns or throws, from its environment alone. -/
def callResult (d : FloatingPoint D) (env : RunEnvironment) (options : BenchmarkOptions)
    (call : RunCall) (sequence : ℕ) : Except StdException (RunMetrics D) :=
  match (contextCall env options call).buildContext sequence with
  | .error e => .error e.toStd
  | .ok context =>
    if env.comesUp then
      match env.producers with
      | .error e => .error e
      | .ok timing =>
        (finalizeRun d context timing env.finished (some env.dropped) env.listing).mapError
          HarnessError.toStd
    else .error ⟨"unable to initialize cpp_logger".toList⟩

theorem RunTrace.result_eq {sequence : ℕ} {es : List RunEvent}
    {result : Except StdException (RunMetrics D)}
    (h : RunTrace d env options call sequence es result) :
    result = callResult d env options call sequence := by
  unfold callResult
  cases h with
  | noContext he => rw [he]
  | notInitialized hcontext hdown =>
    rw [hcontext, hdown]
    rfl
  | notStarted hcontext hup he =>
    rw [hcontext, hup, he]
    rfl
  | notVerified hcontext hup htiming he =>
    rw [hcontext, hup, htiming]
    simp only [he]
    rfl
  | verified hcontext hup htiming hmetrics =>
    rw [hcontext, hup, htiming]
    simp only [hmetrics]
    rfl

/-- A step of `runProfile` that may throw. -/
inductive ProgramStep
  | run (call : RunCall)
  | reserve (count : ℕ)
  deriving DecidableEq, Repr

def ProgramStep.call? : ProgramStep → Option RunCall
  | .run call => some call
  | .reserve _ => none

/-- The runs among the steps. -/
def runsOf (steps : List ProgramStep) : List RunCall := steps.filterMap ProgramStep.call?

def profileSteps (options : BenchmarkOptions) (profile : BenchmarkProfile) : List ProgramStep :=
  (phaseCalls profile .Warmup (List.range' 1 options.common.warmupRuns)).map .run ++
    .reserve options.common.measuredRuns ::
      (phaseCalls profile .Measured (List.range' 1 options.common.measuredRuns)).map .run

/-- All steps of the program, in their order. -/
def programSteps (options : BenchmarkOptions) : List ProgramStep :=
  (selected options).flatMap (profileSteps options)

/-- What a step throws in its environment; `none` if it returns. -/
def stepError (d : FloatingPoint D) (env : RunEnvironment) (options : BenchmarkOptions)
    (sequence : ℕ) : ProgramStep → Option StdException
  | .run call =>
    match callResult d env options call sequence with
    | .ok _ => none
    | .error e => some e
  | .reserve count =>
    match reserveResults env count with
    | .ok _ => none
    | .error e => some e.toStd

/-- What the steps throw, each in the environment whose turn it is; `k` runs are over. -/
def stepErrors (d : FloatingPoint D) (envs : ℕ → RunEnvironment) (options : BenchmarkOptions) :
    ℕ → List ProgramStep → List (Option StdException)
  | _, [] => []
  | k, step :: steps =>
    stepError d (envs k) options (k + 1) step ::
      stepErrors d envs options (k + (runsOf [step]).length) steps

@[simp] theorem runsOf_append (xs ys : List ProgramStep) :
    runsOf (xs ++ ys) = runsOf xs ++ runsOf ys := List.filterMap_append

@[simp] theorem runsOf_map_run (calls : List RunCall) :
    runsOf (calls.map ProgramStep.run) = calls := by
  rw [runsOf, List.filterMap_map]
  exact List.filterMap_some

theorem runsOf_profileSteps (options : BenchmarkOptions) (profile : BenchmarkProfile) :
    runsOf (profileSteps options profile) = planOf options profile := by
  rw [profileSteps, runsOf_append, runsOf_map_run, planOf]
  exact congrArg _ (runsOf_map_run _)

theorem runsOf_flatMap (options : BenchmarkOptions) (done : List BenchmarkProfile) :
    runsOf (done.flatMap (profileSteps options)) = done.flatMap (planOf options) := by
  induction done with
  | nil => rfl
  | cons profile done ih =>
    rw [List.flatMap_cons, List.flatMap_cons, runsOf_append, runsOf_profileSteps, ih]

theorem stepErrors_append (k : ℕ) (xs ys : List ProgramStep) :
    stepErrors d envs options k (xs ++ ys) =
      stepErrors d envs options k xs ++ stepErrors d envs options (k + (runsOf xs).length) ys := by
  induction xs generalizing k with
  | nil => rfl
  | cons step xs ih =>
    have hruns : runsOf (step :: xs) = runsOf [step] ++ runsOf xs := runsOf_append [step] xs
    rw [List.cons_append, stepErrors, stepErrors, ih, hruns, List.length_append, Nat.add_assoc]
    rfl

abbrev Results (D : Type) := List (BenchmarkMetadata × List (RunMetrics D))

/-- The lines of a profile. -/
def rows (d : FloatingPoint D) (metadata : BenchmarkMetadata) (measured : List (RunMetrics D)) :
    Text :=
  (measured.zipIdx 1).flatMap fun x => printRunCsv d [] metadata .Measured x.2 x.1

/-- What is printed before the summary. -/
def runSection (d : FloatingPoint D) (options : BenchmarkOptions) (results : Results D) : Text :=
  preamble options ++ printRunCsvHeader [] ++ results.flatMap fun result => rows d result.1 result.2

/-- The steps `done` have been taken, and all of them have returned. -/
structure Progress (d : FloatingPoint D) (envs : ℕ → RunEnvironment) (options : BenchmarkOptions)
    (done : List ProgramStep) (logs : List (RunLog D)) (t : ProgramState) : Prop where
  logged : Logged d envs options logs t
  runs : logs.map RunLog.call = runsOf done
  errors : ∀ error ∈ stepErrors d envs options 0 done, error = none

/-- One step has thrown after all before it have returned. -/
structure Failed (d : FloatingPoint D) (envs : ℕ → RunEnvironment) (options : BenchmarkOptions)
    (e : StdException) (t : ProgramState) : Prop where
  steps : ∃ done step rest logs, programSteps options = done ++ step :: rest ∧
    (∀ error ∈ stepErrors d envs options 0 done, error = none) ∧
    stepError d (envs (runsOf done).length) options ((runsOf done).length + 1) step = some e ∧
    Logged d envs options logs t ∧ logs.map RunLog.call = runsOf (done ++ [step])
  stdout : ∃ results : Results D, t.stdout = runSection d options results

/-- The results are those of the measured runs, profile by profile. -/
structure Collected (options : BenchmarkOptions) (done : List BenchmarkProfile)
    (logs : List (RunLog D)) (results : Results D) : Prop where
  metadata : results.map Prod.fst = done.map (metadataFor options)
  lengths : ∀ result ∈ results, result.2.length = options.common.measuredRuns
  metrics : (logs.filter RunLog.measured).map RunLog.result =
    (results.flatMap Prod.snd).map Except.ok

/-- Some runs of one kind have returned. -/
structure Looped (d : FloatingPoint D) (envs : ℕ → RunEnvironment) (options : BenchmarkOptions)
    (profile : BenchmarkProfile) (phase : RunPhase) (before : List ProgramStep)
    (logs new : List (RunLog D)) (done : List ℕ) (measured : List (RunMetrics D))
    (t : ProgramState) : Prop where
  progress : Progress d envs options (before ++ (phaseCalls profile phase done).map .run)
    (logs ++ new) t
  phases : ∀ log ∈ new, log.call.phase = phase
  results : new.map RunLog.result = measured.map Except.ok

section Steps

variable {logs : List (RunLog D)} {before rest : List ProgramStep} {s : ProgramState}

theorem Progress.runs_over (h : Progress d envs options before logs s) :
    logs.length = (runsOf before).length := by
  rw [← h.runs, List.length_map]

/-- One more step that has returned. -/
theorem Progress.errors_append (h : Progress d envs options before logs s) {step : ProgramStep}
    (hstep : stepError d (envs (runsOf before).length) options ((runsOf before).length + 1) step =
      none) : ∀ error ∈ stepErrors d envs options 0 (before ++ [step]), error = none := by
  intro error herror
  rw [stepErrors_append, List.mem_append, Nat.zero_add] at herror
  rcases herror with hold | hlast
  · exact h.errors error hold
  · exact (List.mem_singleton.mp hlast).trans hstep

end Steps

/-- A run in the environment whose turn it is. -/
def nextRun (d : FloatingPoint D) (envs : ℕ → RunEnvironment) (options : BenchmarkOptions)
    (profile : BenchmarkProfile) (phase : RunPhase) (runIndex : ℕ) : Program (RunMetrics D) := do
  runOnce d (envs (← get).calls.length) options profile phase runIndex

/-- A reservation, likewise. -/
def nextReserve (envs : ℕ → RunEnvironment) (count : ℕ) : Program Unit := do
  liftHarness (reserveResults (envs (← get).calls.length) count)

section Profile

variable (haccepted : options.Accepted) {logs : List (RunLog D)} {results : Results D}
variable {before rest : List ProgramStep} {s : ProgramState}

theorem reserve_ends {count : ℕ} (hsteps : programSteps options = before ++ .reserve count :: rest)
    (h : Progress d envs options before logs s)
    (hstdout : s.stdout = runSection d options results) :
    Ends
      (fun _ t => Progress d envs options (before ++ [.reserve count]) logs t ∧
        t.stdout = runSection d options results)
      (Failed d envs options)
      (nextReserve envs count s) := by
  have hruns : runsOf (before ++ [.reserve count]) = runsOf before := by
    rw [runsOf_append]
    exact List.append_nil _
  have hover : s.calls.length = (runsOf before).length := by
    rw [h.logged.calls, List.length_map, h.runs_over]
  unfold nextReserve
  rw [get_bind, hover]
  cases hreserve : reserveResults (envs (runsOf before).length) count with
  | ok _ =>
    have herror : stepError d (envs (runsOf before).length) options ((runsOf before).length + 1)
        (.reserve count) = none := by
      rw [stepError, hreserve]
    exact .ok ⟨⟨h.logged, h.runs.trans hruns.symm, h.errors_append herror⟩, hstdout⟩
  | error e =>
    refine .error ⟨⟨before, _, rest, logs, hsteps, h.errors, ?_, h.logged, ?_⟩, results, hstdout⟩
    · rw [stepError, hreserve]
    · rw [hruns, h.runs]

include haccepted

theorem call_ends (hprofile : profile ∈ profiles)
    (hsteps : programSteps options = before ++ .run ⟨profile.id, phase, runIndex⟩ :: rest)
    (h : Progress d envs options before logs s)
    (hstdout : s.stdout = runSection d options results) :
    Ends
      (fun metrics t => ∃ es,
        Progress d envs options (before ++ [.run ⟨profile.id, phase, runIndex⟩])
          (logs ++ [⟨⟨profile.id, phase, runIndex⟩, es, .ok metrics⟩]) t ∧
          t.stdout = runSection d options results)
      (Failed d envs options)
      (nextRun d envs options profile phase runIndex s) := by
  have hruns : ∀ es (result : Except StdException (RunMetrics D)),
      (logs ++ [(⟨⟨profile.id, phase, runIndex⟩, es, result⟩ : RunLog D)]).map RunLog.call =
        runsOf (before ++ [.run ⟨profile.id, phase, runIndex⟩]) := by
    intro es result
    rw [List.map_append, h.runs, runsOf_append]
    rfl
  have hover : s.calls.length = (runsOf before).length := by
    rw [h.logged.calls, List.length_map, h.runs_over]
  have hsequence : s.sequence = (runsOf before).length := by
    rw [h.logged.sequence, h.runs_over]
  refine (runOnce_ends haccepted hprofile rfl s).mono (fun metrics t hok => ?_) fun e t herror => ?_
  · obtain ⟨es, hfollows, htrace⟩ := hok
    refine ⟨es, ⟨h.logged.step hfollows htrace, hruns es _, h.errors_append ?_⟩,
      hfollows.stdout.trans hstdout⟩
    have hresult := htrace.result_eq
    rw [hover, hsequence] at hresult
    rw [stepError, ← hresult]
  · obtain ⟨es, hfollows, htrace⟩ := herror
    refine ⟨⟨before, _, rest, _, hsteps, h.errors, ?_, h.logged.step hfollows htrace, hruns es _⟩,
      results, hfollows.stdout.trans hstdout⟩
    have hresult := htrace.result_eq
    rw [hover, hsequence] at hresult
    rw [stepError, ← hresult]

/-- One more run of the loop. -/
theorem Looped.step (hprofile : profile ∈ profiles) {indices done todo : List ℕ}
    (hindices : indices = done ++ runIndex :: todo)
    (hsteps : programSteps options = before ++ (phaseCalls profile phase indices).map .run ++ rest)
    {new : List (RunLog D)} {measured : List (RunMetrics D)}
    (h : Looped d envs options profile phase before logs new done measured s)
    (hstdout : s.stdout = runSection d options results) :
    Ends
      (fun metrics t => (∃ new, Looped d envs options profile phase before logs new
        (done ++ [runIndex]) (measured ++ [metrics]) t) ∧ t.stdout = runSection d options results)
      (Failed d envs options)
      (nextRun d envs options profile phase runIndex s) := by
  have hnext : programSteps options = before ++ (phaseCalls profile phase done).map .run ++
      .run ⟨profile.id, phase, runIndex⟩ :: ((phaseCalls profile phase todo).map .run ++ rest) := by
    rw [hsteps, hindices]
    simp [phaseCalls]
  refine (call_ends haccepted hprofile hnext h.progress hstdout).mono
    (fun metrics t hok => ?_) fun e t herror => herror
  obtain ⟨es, hprogress, hout⟩ := hok
  refine ⟨⟨new ++ [⟨⟨profile.id, phase, runIndex⟩, es, .ok metrics⟩], ?_, ?_, ?_⟩, hout⟩
  · simpa [phaseCalls] using hprogress
  · intro log hlog
    rcases List.mem_append.mp hlog with hold | hlast
    · exact h.phases log hold
    · rw [List.mem_singleton.mp hlast]
  · rw [List.map_append, h.results]
    simp

/-- The runs of one loop. -/
theorem loop_ends (hprofile : profile ∈ profiles) {indices : List ℕ}
    (hsteps : programSteps options = before ++ (phaseCalls profile phase indices).map .run ++ rest)
    (h : Progress d envs options before logs s)
    (hstdout : s.stdout = runSection d options results) :
    Ends
      (fun measured t => (∃ new, Looped d envs options profile phase before logs new indices
        measured t) ∧ t.stdout = runSection d options results)
      (Failed d envs options)
      (indices.mapM (nextRun d envs options profile phase) s) := by
  apply Ends.mapM fun done measured t =>
    (∃ new, Looped d envs options profile phase before logs new done measured t) ∧
      t.stdout = runSection d options results
  · exact ⟨⟨[], by simpa [phaseCalls] using h, by simp, rfl⟩, hstdout⟩
  · rintro done runIndex todo measured u hindices ⟨⟨new, hlooped⟩, hout⟩
    exact hlooped.step haccepted hprofile hindices hsteps hout

end Profile

/-! ## The runs of the program -/

theorem print_run (text : Text) (s : ProgramState) :
    print text s = .ok () { s with stdout := s.stdout ++ text } := rfl

theorem printAll_run {α : Type} (f : α → Text) (l : List α) (s : ProgramState) :
    l.forM (m := Program) (fun a => print (f a)) s =
      .ok () { s with stdout := s.stdout ++ l.flatMap f } := by
  induction l generalizing s with
  | nil =>
    rw [List.flatMap_nil, List.append_nil]
    rfl
  | cons a l ih =>
    refine (bind_ok (print_run (f a) s) fun _ => l.forM fun a => print (f a)).trans ?_
    rw [ih, List.flatMap_cons, List.append_assoc]

/-- The profiles so far have been run, and their lines printed. -/
structure Reported (d : FloatingPoint D) (envs : ℕ → RunEnvironment) (options : BenchmarkOptions)
    (done : List BenchmarkProfile) (results : Results D) (t : ProgramState) : Prop where
  logs : ∃ logs, Progress d envs options (done.flatMap (profileSteps options)) logs t ∧
    Collected options done logs results
  stdout : t.stdout = runSection d options results

theorem Collected.step {done : List BenchmarkProfile} {logs warmups new : List (RunLog D)}
    {results : Results D} {before before' : List ProgramStep}
    {ignored measured : List (RunMetrics D)} {t u : ProgramState}
    (h : Collected options done logs results)
    (hwarmups : Looped d envs options profile .Warmup before logs warmups
      (List.range' 1 options.common.warmupRuns) ignored t)
    (hnew : Looped d envs options profile .Measured before' (logs ++ warmups) new
      (List.range' 1 options.common.measuredRuns) measured u)
    (hlength : new.length = options.common.measuredRuns) :
    Collected options (done ++ [profile]) (logs ++ warmups ++ new)
      (results ++ [(metadataFor options profile, measured)]) where
  metadata := by
    rw [List.map_append, h.metadata, List.map_append]
    rfl
  lengths result hresult := by
    rcases List.mem_append.mp hresult with hold | hlast
    · exact h.lengths result hold
    · have hresults := congrArg List.length hnew.results
      rw [List.mem_singleton.mp hlast]
      rw [List.length_map, List.length_map, hlength] at hresults
      exact hresults.symm
  metrics := by
    have hnone : warmups.filter RunLog.measured = [] := by
      refine List.filter_eq_nil_iff.mpr fun log hlog => ?_
      simp [RunLog.measured, hwarmups.phases log hlog]
    have hall : new.filter RunLog.measured = new := by
      refine List.filter_eq_self.mpr fun log hlog => ?_
      simp [RunLog.measured, hnew.phases log hlog]
    rw [List.filter_append, List.filter_append, hnone, hall, List.append_nil, List.map_append,
      h.metrics, hnew.results]
    simp

/-- The steps of one more profile. -/
theorem runProfile_ends (haccepted : options.Accepted) (hcounts : options.Counts)
    {done todo : List BenchmarkProfile}
    (hselected : selected options = done ++ profile :: todo) {results : Results D}
    {s : ProgramState} (h : Reported d envs options done results s) :
    Ends
      (fun measured t => (∃ logs,
        Progress d envs options ((done ++ [profile]).flatMap (profileSteps options)) logs t ∧
        Collected options (done ++ [profile]) logs
          (results ++ [(metadataFor options profile, measured)])) ∧
        t.stdout = runSection d options results)
      (Failed d envs options)
      (runProfile options.common (nextReserve envs) (nextRun d envs options profile) s) := by
  obtain ⟨⟨logs, hprogress, hcollected⟩, hstdout⟩ := h
  have hprofile : profile ∈ profiles := by
    have hmem : profile ∈ selected options := by simp [hselected]
    exact List.mem_of_mem_filter hmem
  set before := done.flatMap (profileSteps options)
  set warm := (phaseCalls profile .Warmup (List.range' 1 options.common.warmupRuns)).map
    ProgramStep.run
  set rest := todo.flatMap (profileSteps options)
  have hsteps : programSteps options = before ++ warm ++
      .reserve options.common.measuredRuns ::
        ((phaseCalls profile .Measured (List.range' 1 options.common.measuredRuns)).map .run ++
          rest) := by
    rw [programSteps, hselected]
    simp [before, warm, rest, profileSteps]
  rw [runProfile_eq hcounts]
  refine (loop_ends haccepted hprofile hsteps hprogress hstdout).bind fun ignored t hok => ?_
  obtain ⟨⟨warmups, hwarmups⟩, hout⟩ := hok
  refine (reserve_ends hsteps hwarmups.progress hout).bind fun _ u hok => ?_
  obtain ⟨hreserved, hout⟩ := hok
  have hsteps' : programSteps options = before ++ warm ++ [.reserve options.common.measuredRuns] ++
      (phaseCalls profile .Measured (List.range' 1 options.common.measuredRuns)).map .run ++
        rest := by
    rw [hsteps]
    simp
  refine (loop_ends haccepted hprofile hsteps' hreserved hout).mono
    (fun measured v hok => ?_) fun e v herror => herror
  obtain ⟨⟨new, hnew⟩, hout'⟩ := hok
  have hlength : new.length = options.common.measuredRuns := by
    have hruns := hnew.progress.runs_over
    have hbefore := hreserved.runs_over
    simp only [List.length_append, runsOf_append, runsOf_map_run, phaseCalls, List.length_map,
      List.length_range'] at hruns hbefore
    omega
  refine ⟨⟨_, ?_, hcollected.step hwarmups hnew hlength⟩, hout'⟩
  have hdone : (done ++ [profile]).flatMap (profileSteps options) =
      before ++ warm ++ [.reserve options.common.measuredRuns] ++
        (phaseCalls profile .Measured (List.range' 1 options.common.measuredRuns)).map .run := by
    simp [before, warm, profileSteps]
  rw [hdone]
  exact hnew.progress

/-- One more profile. -/
theorem profile_ends (haccepted : options.Accepted) (hcounts : options.Counts)
    {done todo : List BenchmarkProfile}
    (hselected : selected options = done ++ profile :: todo) {results : Results D}
    {s : ProgramState} (h : Reported d envs options done results s) :
    Ends (fun result t => Reported d envs options (done ++ [profile]) (results ++ [result]) t)
      (Failed d envs options) (reportProfile d envs options profile s) := by
  refine (runProfile_ends haccepted hcounts hselected h).bind fun measured t hok => ?_
  obtain ⟨⟨logs, hprogress, hcollected⟩, hstdout⟩ := hok
  have hlogged := hprogress.logged
  have hprint := printAll_run (fun x : RunMetrics D × ℕ =>
    printRunCsv d [] (metadataFor options profile) .Measured x.2 x.1) (measured.zipIdx 1) t
  change Ends _ _ (((measured.zipIdx 1).forM (m := Program) (fun x : RunMetrics D × ℕ =>
    print (printRunCsv d [] (metadataFor options profile) .Measured x.2 x.1)) >>= fun _ =>
      pure (metadataFor options profile, measured)) t)
  rw [bind_ok hprint]
  refine .ok ⟨⟨logs, ⟨⟨hlogged.traces, hlogged.calls, hlogged.events, hlogged.sequence⟩,
    hprogress.runs, hprogress.errors⟩, hcollected⟩, ?_⟩
  rw [hstdout]
  simp [runSection, rows]

/-- None of the profiles is without a measured run. -/
theorem Collected.nonempty {done : List BenchmarkProfile} {logs : List (RunLog D)}
    {results : Results D} (h : Collected options done logs results) :
    ∀ result ∈ results, result.2 ≠ [] := by
  intro result hresult hnil
  have hlength := h.lengths result hresult
  have hpos := options.common.measuredRuns_pos
  rw [hnil, List.length_nil] at hlength
  omega

/-- The last profile has been reported, with a line of summary for each. -/
structure Completed (d : FloatingPoint D) (envs : ℕ → RunEnvironment) (options : BenchmarkOptions)
    (results : Results D) (lines : List Text) (t : ProgramState) : Prop where
  logs : ∃ logs, Progress d envs options (programSteps options) logs t ∧
    Collected options (selected options) logs results
  summaries : List.Forall₂ (fun result line => printSummaryCsv d [] result.1 result.2 = .ok line)
    results lines
  stdout : t.stdout = runSection d options results ++ "\n# summary rows\n".toList ++
    printSummaryCsvHeader [] ++ lines.flatten

/-- There is a line for every profile. -/
theorem summaryLines (results : Results D) (h : ∀ result ∈ results, result.2 ≠ []) :
    ∃ lines, List.Forall₂ (fun result line => printSummaryCsv d [] result.1 result.2 = .ok line)
      results lines := by
  induction results with
  | nil => exact ⟨[], .nil⟩
  | cons result results ih =>
    obtain ⟨hne, hrest⟩ := List.forall_mem_cons.mp h
    obtain ⟨lines, hlines⟩ := ih hrest
    obtain ⟨summary, hsummary⟩ := summarize_ok (d := d) hne
    exact ⟨_, .cons (printSummaryCsv_eq hsummary [] result.1) hlines⟩

theorem printSummaries_run {results : Results D} {lines : List Text}
    (h : List.Forall₂ (fun result line => printSummaryCsv d [] result.1 result.2 = .ok line)
      results lines) (s : ProgramState) :
    results.forM (m := Program) (fun result => do
      print (← liftHarness (printSummaryCsv d [] result.1 result.2))) s =
      .ok () { s with stdout := s.stdout ++ lines.flatten } := by
  induction h generalizing s with
  | nil =>
    rw [List.flatten_nil, List.append_nil]
    rfl
  | @cons result line results lines hline _ ih =>
    have hprint : (liftHarness (printSummaryCsv d [] result.1 result.2) >>= print) s =
        .ok () { s with stdout := s.stdout ++ line } := by
      rw [hline]
      rfl
    refine (bind_ok hprint _).trans ((ih _).trans ?_)
    rw [List.flatten_cons, List.append_assoc]

theorem reportAll_ends (haccepted : options.Accepted) (hcounts : options.Counts) :
    Ends
      (fun _ t => validateProfiles options profiles = .ok () ∧
        ∃ results lines, Completed d envs options results lines t)
      (fun e t => t = {} ∧ (∃ e', validateProfiles options profiles = .error e' ∧ e = e'.toStd) ∨
        validateProfiles options profiles = .ok () ∧ Failed d envs options e t)
      (reportAll d envs options {}) := by
  unfold reportAll
  cases hvalid : validateProfiles options profiles with
  | error e => exact .error (.inl ⟨rfl, e, rfl, rfl⟩)
  | ok _ =>
    have hstart : Reported d envs options [] []
        { stdout := [] ++ preamble options ++ (printRunCsvHeader []) } :=
      ⟨⟨[], ⟨⟨by simp, rfl, rfl, rfl⟩, rfl, by simp [stepErrors]⟩, ⟨rfl, by simp, rfl⟩⟩,
        by simp [runSection]⟩
    have hloop := Ends.mapM (R := Failed d envs options) (l := selected options)
      (fun done results t => Reported d envs options done results t) hstart
      fun done profile todo results s hselected h => profile_ends haccepted hcounts hselected h
    refine Ends.mono (Q := fun _ t => ∃ results lines, Completed d envs options results lines t)
      (R := Failed d envs options) ?_ (fun _ t h => ⟨rfl, h⟩) fun e t h => .inr ⟨rfl, h⟩
    refine hloop.bind ?_
    rintro results t ⟨⟨logs, hprogress, hcollected⟩, hstdout⟩
    have hlogged := hprogress.logged
    obtain ⟨lines, hlines⟩ := summaryLines (d := d) results hcollected.nonempty
    rw [bind_ok (print_run _ _), bind_ok (print_run _ _), printSummaries_run hlines]
    refine .ok ⟨results, lines, ⟨logs, ⟨⟨hlogged.traces, hlogged.calls, hlogged.events,
      hlogged.sequence⟩, hprogress.runs, hprogress.errors⟩, hcollected⟩, hlines, ?_⟩
    rw [hstdout]

end CppLogger
