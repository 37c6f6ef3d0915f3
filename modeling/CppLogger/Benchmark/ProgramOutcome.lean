import CppLogger.Benchmark.Counting
import CppLogger.Benchmark.ProgramRuns

/-!
# The outcome of the benchmark program

The program returns from every call. It leaves no logger running, no producer thread and no
directory that it was not asked to keep, and never looks into a directory or empties it while
somebody may still write there. It succeeds when all runs do, and then a reader of its tables
finds what the measured runs have measured.
-/

namespace CppLogger

open Paths Statement

variable {D : Type} {d : FloatingPoint D} {env : RunEnvironment} {envs : ℕ → RunEnvironment}
variable {options : BenchmarkOptions} {call : RunCall} {sequence : ℕ}

/-! ## Logger, threads and directories -/

namespace RunEvent

/-- Whether the logger runs after the event. -/
def running (before : Bool) : RunEvent → Bool
  | .initialized accepted => accepted
  | .stopped => false
  | _ => before

/-- Whether there are producer threads after the event. -/
def threads (before : Bool) : RunEvent → Bool
  | .started returned => returned
  | .released => false
  | _ => before

/-- The events that should not find anybody at work. -/
def alone : RunEvent → Bool
  | .created _ => true
  | .initialized _ => true
  | .inspected _ => true
  | .removed _ => true
  | _ => false

def directory? : RunEvent → Option Text
  | .created directory => some directory
  | _ => none

def removed? : RunEvent → Option Text
  | .removed directory => some directory
  | _ => none

end RunEvent

/-- From a state of the logger and the threads on, directories are created, inspected and
removed and the logger is initialized only while neither is at work, and nobody is at the
end. -/
def DoneAlone (running threads : Bool) : List RunEvent → Prop
  | [] => running = false ∧ threads = false
  | event :: events =>
    (event.alone = true → running = false ∧ threads = false) ∧
      DoneAlone (event.running running) (event.threads threads) events

def createdDirectories (events : List RunEvent) : List Text := events.filterMap RunEvent.directory?

def removedDirectories (events : List RunEvent) : List Text := events.filterMap RunEvent.removed?

theorem DoneAlone.append {running threads : Bool} {es fs : List RunEvent}
    (h : DoneAlone running threads es) (hf : DoneAlone false false fs) :
    DoneAlone running threads (es ++ fs) := by
  induction es generalizing running threads with
  | nil =>
    obtain ⟨rfl, rfl⟩ := h
    exact hf
  | cons event es ih => exact ⟨h.1, ih h.2⟩

theorem DoneAlone.flatMap {α : Type} {l : List α} {f : α → List RunEvent}
    (h : ∀ a ∈ l, DoneAlone false false (f a)) : DoneAlone false false (l.flatMap f) := by
  induction l with
  | nil => exact ⟨rfl, rfl⟩
  | cons a l ih =>
    obtain ⟨ha, hl⟩ := List.forall_mem_cons.mp h
    rw [List.flatMap_cons]
    exact ha.append (ih hl)

section Trace

variable {es : List RunEvent} {result : Except StdException (RunMetrics D)}

theorem RunTrace.alone
    (h : RunTrace d env options call sequence es result) :
    DoneAlone false false es := by
  cases h <;> cases hkeep : options.common.keepLogs <;>
    simp [cleanupEvents, hkeep, DoneAlone, RunEvent.running, RunEvent.threads,
      RunEvent.alone]

/-- A run removes what it has created, unless it is to be kept. -/
theorem RunTrace.removed_eq
    (h : RunTrace d env options call sequence es result) :
    removedDirectories es = if options.common.keepLogs then [] else createdDirectories es := by
  cases h <;> cases hkeep : options.common.keepLogs <;>
    simp only [cleanupEvents, hkeep, Bool.false_eq_true, if_true, if_false] <;> rfl

/-- A run has at most one directory. -/
theorem RunTrace.created_cases
    (h : RunTrace d env options call sequence es result) :
    createdDirectories es = [] ∨ ∃ context, createdDirectories es = [context.outputDirectory] ∧
      (contextCall env options call).buildContext sequence = .ok context := by
  cases h with
  | noContext he => exact .inl rfl
  | _ =>
    refine .inr ⟨_, ?_, ‹_›⟩
    cases hkeep : options.common.keepLogs <;>
      simp only [cleanupEvents, hkeep, Bool.false_eq_true, if_true, if_false] <;> rfl

end Trace

/-- The number of a run is what follows the last underscore of its directory's name. -/
def directoryNumber (directory : Text) : Text := directory.rtakeWhile (· ≠ '_')

theorem directory_number {call : ContextCall} {n : ℕ} {context : RunContext}
    (h : call.buildContext n = .ok context) : directoryNumber context.outputDirectory = decimal n := by
  have hnumber : '_' ∉ decimal n := not_mem_decimal (by decide) (by decide) n
  obtain ⟨hdirectory, -⟩ := buildContext_ok h
  obtain ⟨front, hfront⟩ := suffix_joinPath (joinPath (joinPath call.options.outputDirectory
    call.library) call.profile) (call.suffix n)
  have hsplit : context.outputDirectory = (front ++ runPhaseName call.phase ++ ['_'] ++
      decimal call.runIndex ++ ['_'] ++ decimal call.timestamp) ++ '_' :: decimal n := by
    rw [hdirectory, ContextCall.directory, ← hfront]
    unfold ContextCall.suffix
    simp only [List.append_assoc, List.cons_append, List.nil_append]
  rw [directoryNumber, hsplit, Search.rtakeWhile_field hnumber]

section Logged

variable {logs : List (RunLog D)} {s : ProgramState}

theorem Logged.trace (h : Logged d envs options logs s) {log : RunLog D} (hlog : log ∈ logs) :
    ∃ k, RunTrace d (envs k) options log.call (k + 1) log.events log.result := by
  obtain ⟨k, hk⟩ := List.mem_iff_getElem?.mp hlog
  exact ⟨k, h.traces k log hk⟩

theorem Logged.alone (h : Logged d envs options logs s) : DoneAlone false false s.events := by
  rw [h.events]
  apply DoneAlone.flatMap
  intro log hlog
  obtain ⟨k, htrace⟩ := h.trace hlog
  exact htrace.alone

theorem Logged.removed_eq (h : Logged d envs options logs s) :
    removedDirectories s.events =
      if options.common.keepLogs then [] else createdDirectories s.events := by
  have hruns : ∀ log ∈ logs, removedDirectories log.events =
      if options.common.keepLogs then [] else createdDirectories log.events := by
    intro log hlog
    obtain ⟨k, htrace⟩ := h.trace hlog
    exact htrace.removed_eq
  have hremoved : removedDirectories s.events =
      logs.flatMap fun log => removedDirectories log.events := by
    rw [h.events, removedDirectories, List.filterMap_flatMap]
    rfl
  have hcreated : createdDirectories s.events =
      logs.flatMap fun log => createdDirectories log.events := by
    rw [h.events, createdDirectories, List.filterMap_flatMap]
    rfl
  rw [hremoved, hcreated, List.flatMap_congr hruns]
  split_ifs
  · simp
  · rfl

/-- No two runs share a directory. -/
theorem Logged.fresh (h : Logged d envs options logs s) : (createdDirectories s.events).Nodup := by
  have hcreated : createdDirectories s.events =
      logs.flatMap fun log => createdDirectories log.events := by
    rw [h.events, createdDirectories, List.filterMap_flatMap]
    rfl
  have hnumber : ∀ k (hk : k < logs.length), ∀ directory ∈ createdDirectories logs[k].events,
      directoryNumber directory = decimal (k + 1 : ℕ) := by
    intro k hk directory hmem
    rcases (h.traces k _ (List.getElem?_eq_getElem hk)).created_cases with hnone | ⟨_, hone, hbuilt⟩
    · rw [hnone] at hmem
      cases hmem
    · rw [hone] at hmem
      rw [List.mem_singleton.mp hmem]
      exact directory_number hbuilt
  rw [hcreated, List.Nodup, List.pairwise_flatMap]
  constructor
  · intro log hlog
    obtain ⟨k, htrace⟩ := h.trace hlog
    rcases htrace.created_cases with hnone | ⟨_, hone, -⟩
    · rw [hnone]
      exact .nil
    · rw [hone]
      exact List.pairwise_singleton _ _
  · rw [List.pairwise_iff_getElem]
    intro i j hi hj hless x hx y hy heq
    have hsame := hnumber i hi x hx
    rw [heq, hnumber j hj y hy] at hsame
    have := decimal_injective hsame
    omega

end Logged

/-! ## The ends of the program -/

def failure (what : Text) : Text := "cpp_logger benchmark failed: ".toList ++ what ++ ['\n']

theorem append_failure (text what : Text) :
    text ++ "cpp_logger benchmark failed: ".toList ++ what ++ ['\n'] = text ++ failure what := by
  unfold failure
  rw [List.append_assoc text, List.append_assoc text]

/-- What the program returns with these options. -/
inductive Verdict (d : FloatingPoint D) (envs : ℕ → RunEnvironment) (options : BenchmarkOptions) :
    ℕ → ProgramState → Prop
  | reported {results : Results D} {lines : List Text} {t : ProgramState}
      (hvalid : validateProfiles options profiles = .ok ())
      (h : Completed d envs options results lines t) : Verdict d envs options 0 t
  | unknownProfile {e : HarnessError} (h : validateProfiles options profiles = .error e) :
      Verdict d envs options 1 { stderr := failure e.toStd.what }
  | failed {e : StdException} {s : ProgramState}
      (hvalid : validateProfiles options profiles = .ok ()) (h : Failed d envs options e s) :
      Verdict d envs options 1 { s with stderr := s.stderr ++ failure e.what }

theorem main_refused {args : List Text} {e : HarnessError} (h : parseOptions args = .error e)
    (program : Text) :
    main d envs program args {} = .ok 1 { stderr := failure e.toStd.what } := by
  have hrun : main d envs program args {} =
      .ok 1 { stderr := [] ++ "cpp_logger benchmark failed: ".toList ++ e.toStd.what ++ ['\n'] } := by
    unfold main
    rw [h]
    rfl
  rwa [List.nil_append] at hrun

theorem main_help {args : List Text} (h : parseOptions args = .ok none) (program : Text) :
    main d envs program args {} = .ok 0 { stdout := usage program } := by
  have hrun : main d envs program args {} = .ok 0 { stdout := [] ++ usage program } := by
    unfold main
    rw [h]
    rfl
  rwa [List.nil_append] at hrun

theorem main_ends (d : FloatingPoint D) (envs : ℕ → RunEnvironment) {args : List Text}
    (h : parseOptions args = .ok (some options)) (hcounts : options.Counts) (program : Text) :
    ∃ code t, main d envs program args {} = .ok code t ∧ Verdict d envs options code t := by
  have hends : Ends (Verdict d envs options) (fun _ _ => False) (main d envs program args {}) := by
    unfold main
    rw [h]
    refine Ends.tryCatch (R := fun e t =>
      t = {} ∧ (∃ e', validateProfiles options profiles = .error e' ∧ e = e'.toStd) ∨
        validateProfiles options profiles = .ok () ∧ Failed d envs options e t) ?_ ?_
    · refine (reportAll_ends (accepted_of_parseOptions h) hcounts).bind fun _ t hcompleted => ?_
      obtain ⟨hvalid, results, lines, hcompleted⟩ := hcompleted
      exact .ok (.reported hvalid hcompleted)
    · intro e s herror
      rcases herror with ⟨rfl, e', hvalid, rfl⟩ | ⟨hvalid, hfailed⟩
      · exact .ok (.unknownProfile hvalid)
      · have hrun : (modify fun s : ProgramState => { s with
            stderr := s.stderr ++ "cpp_logger benchmark failed: ".toList ++ e.what ++ ['\n'] } :
              Program Unit) s = .ok () { s with stderr := s.stderr ++ failure e.what } := by
          rw [← append_failure]
          rfl
        rw [bind_ok hrun]
        exact .ok (.failed hvalid hfailed)
  cases hmain : main d envs program args {} with
  | ok code t =>
    rw [hmain] at hends
    cases hends with
    | ok h => exact ⟨code, t, rfl, h⟩
  | error e t =>
    rw [hmain] at hends
    cases hends with
    | error h => exact h.elim

/-! ## The results of the runs -/

/-- The results of all runs, each in its environment. -/
def runResults (d : FloatingPoint D) (envs : ℕ → RunEnvironment) (options : BenchmarkOptions) :
    List (Except StdException (RunMetrics D)) :=
  (plan options).mapIdx fun k call => callResult d (envs k) options call (k + 1)

section Results

variable {logs : List (RunLog D)} {s : ProgramState}

theorem Logged.results (h : Logged d envs options logs s) :
    logs.map RunLog.result = (logs.map RunLog.call).mapIdx fun k call =>
      callResult d (envs k) options call (k + 1) := by
  apply List.ext_getElem?
  intro k
  rw [List.getElem?_mapIdx, List.getElem?_map, List.getElem?_map]
  cases hlog : logs[k]? with
  | none => rfl
  | some log => exact congrArg some (h.traces k log hlog).result_eq

theorem Completed.runs {results : Results D} {lines : List Text}
    (h : Completed d envs options results lines s) :
    ∃ logs, Progress d envs options (programSteps options) logs s ∧
      Collected options (selected options) logs results ∧ logs.map RunLog.call = plan options := by
  obtain ⟨logs, hprogress, hcollected⟩ := h.logs
  refine ⟨logs, hprogress, hcollected, ?_⟩
  rw [hprogress.runs]
  exact runsOf_flatMap options (selected options)

end Results

/-! ## What the program leaves behind -/

/-- The state after a call of the program with these options. -/
structure LeftBehind (options : BenchmarkOptions) (code : ℕ) (t : ProgramState) : Prop where
  alone : DoneAlone false false t.events
  fresh : (createdDirectories t.events).Nodup
  cleaned : removedDirectories t.events = if options.common.keepLogs then [] else createdDirectories t.events
  calls : t.calls <+: plan options
  complete : code = 0 → t.calls = plan options

theorem Logged.leaves {logs : List (RunLog D)} {s t : ProgramState} {code : ℕ}
    (h : Logged d envs options logs s) (hcalls : t.calls = s.calls) (hevents : t.events = s.events)
    (hplan : logs.map RunLog.call <+: plan options)
    (hcomplete : code = 0 → logs.map RunLog.call = plan options) : LeftBehind options code t where
  alone := hevents ▸ h.alone
  fresh := hevents ▸ h.fresh
  cleaned := hevents ▸ h.removed_eq
  calls := by rwa [hcalls, h.calls]
  complete hcode := by rw [hcalls, h.calls, hcomplete hcode]

theorem Failed.calls {e : StdException} {s : ProgramState} (h : Failed d envs options e s) :
    ∃ logs, Logged d envs options logs s ∧ logs.map RunLog.call <+: plan options := by
  obtain ⟨done, step, rest, logs, hsteps, -, -, hlogged, hruns⟩ := h.steps
  refine ⟨logs, hlogged, runsOf rest, ?_⟩
  rw [hruns, ← runsOf_append, plan, ← runsOf_flatMap]
  change _ = runsOf (programSteps options)
  rw [hsteps]
  simp

theorem Verdict.leaves {code : ℕ} {t : ProgramState} (h : Verdict d envs options code t) :
    LeftBehind options code t := by
  cases h with
  | reported _ h =>
    obtain ⟨logs, hprogress, -, hplan⟩ := h.runs
    exact hprogress.logged.leaves rfl rfl (by rw [hplan]) fun _ => hplan
  | unknownProfile h =>
    refine ⟨⟨rfl, rfl⟩, .nil, ?_, List.nil_prefix, by simp⟩
    split_ifs <;> rfl
  | failed _ h =>
    obtain ⟨logs, hlogged, hplan⟩ := h.calls
    exact hlogged.leaves rfl rfl hplan (by simp)

/-- The program returns, whatever the arguments, the file system, the logger and the producers
do. Nobody was at work whenever it used a directory or initialized the logger, and nobody is
left at work; every run had a directory of its own, and the directories are gone unless they
are to be kept. Its runs are the first of those that the options ask for, and all of them if
it succeeds. -/
theorem main_settles (d : FloatingPoint D) (envs : ℕ → RunEnvironment) (program : Text)
    (args : List Text)
    (hcounts : ∀ options, parseOptions args = .ok (some options) → options.Counts) :
    ∃ code t, main d envs program args {} = .ok code t ∧
      match parseOptions args with
      | .error e => code = 1 ∧ t = { stderr := failure e.toStd.what }
      | .ok none => code = 0 ∧ t = { stdout := usage program }
      | .ok (some options) => LeftBehind options code t := by
  cases h : parseOptions args with
  | error e => exact ⟨1, _, main_refused h program, rfl, rfl⟩
  | ok result =>
    cases result with
    | none => exact ⟨0, _, main_help h program, rfl, rfl⟩
    | some options =>
      obtain ⟨code, t, hmain, hverdict⟩ := main_ends d envs h (hcounts options h) program
      exact ⟨code, t, hmain, hverdict.leaves⟩

/-- One producer with one message, a warm-up and two measured runs. -/
def loneOptions : BenchmarkOptions :=
  { BenchmarkOptions.initial with
    common := { BenchmarkOptions.initial.common with
      threadCount := 1
      messagesPerThread := 1
      measuredRuns := 2
      selectedProfiles := ["drop-newest".toList]
      threadCount_pos := Nat.one_pos
      messagesPerThread_pos := Nat.one_pos
      measuredRuns_pos := Nat.two_pos } }

/-- The logger drops the message, and no file is found. -/
def droppingEnvironment : RunEnvironment where
  timestamp := 7
  producers := .ok ⟨0, 1⟩
  finished := 2
  dropped := 1
  listing := .ok []

theorem loneOptions_accepted : loneOptions.Accepted := by
  refine ⟨fun option => ?_, ?_, ?_, ?_, ?_⟩
  · cases option <;> decide
  all_goals decide

theorem loneOptions_counts : loneOptions.Counts := ⟨by decide, by decide⟩

theorem main_settles_lone :
    let envs := fun k => { droppingEnvironment with comesUp := decide (k ≠ 1) }
    ∃ code t, main exactNumbers envs [] (loneOptions.settings.flatMap Setting.render) {} =
      .ok code t ∧ LeftBehind loneOptions code t := by
  intro envs
  have hparse := parseOptions_settings loneOptions_accepted
  have hsettles := main_settles exactNumbers envs []
    (loneOptions.settings.flatMap Setting.render) fun options h => by
      rw [hparse] at h
      cases h
      exact loneOptions_counts
  rwa [hparse] at hsettles

/-! ## Success and failure -/

/-- The first step that throws, the runs up to it, and what is said about it. -/
def FailedStep (d : FloatingPoint D) (envs : ℕ → RunEnvironment) (options : BenchmarkOptions)
    (t : ProgramState) : Prop :=
  ∃ done step rest e, programSteps options = done ++ step :: rest ∧
    (∀ error ∈ stepErrors d envs options 0 done, error = none) ∧
    stepError d (envs (runsOf done).length) options ((runsOf done).length + 1) step = some e ∧
    t.calls = runsOf (done ++ [step]) ∧ ∃ warnings, t.stderr = warnings ++ failure e.what

theorem Failed.failedStep {e : StdException} {s : ProgramState} (h : Failed d envs options e s) :
    FailedStep d envs options { s with stderr := s.stderr ++ failure e.what } := by
  obtain ⟨done, step, rest, logs, hsteps, hdone, hstep, hlogged, hruns⟩ := h.steps
  exact ⟨done, step, rest, e, hsteps, hdone, hstep, hlogged.calls.trans hruns, _, rfl⟩

/-- Where every step returns, there is nothing to fail with. -/
theorem main_succeeds (d : FloatingPoint D) (envs : ℕ → RunEnvironment) {args : List Text}
    (h : parseOptions args = .ok (some options))
    (hcounts : options.Counts) (hvalid : validateProfiles options profiles = .ok ())
    (hreturns : ∀ error ∈ stepErrors d envs options 0 (programSteps options), error = none)
    (program : Text) : ∃ t, main d envs program args {} = .ok 0 t := by
  obtain ⟨code, t, hmain, hverdict⟩ := main_ends d envs h hcounts program
  cases hverdict with
  | reported => exact ⟨t, hmain⟩
  | failed _ hfailed =>
    obtain ⟨done, step, rest, -, hsteps, -, hstep, -⟩ := hfailed.steps
    have herror := hreturns _ (by
      rw [hsteps, stepErrors_append, stepErrors, Nat.zero_add, hstep]
      exact List.mem_append_right _ List.mem_cons_self)
    cases herror
  | unknownProfile hunknown =>
    rw [hvalid] at hunknown
    cases hunknown

/-- With options that are accepted, the program succeeds when all profiles asked for exist and
every step returns, the runs and the reservations for their results; otherwise it fails with the
error of the profile, before any run, or with that of the first step that throws, and makes no
run behind it. -/
theorem main_verdict (d : FloatingPoint D) (envs : ℕ → RunEnvironment) {args : List Text}
    (h : parseOptions args = .ok (some options)) (hcounts : options.Counts) (program : Text) :
    ∃ code t, main d envs program args {} = .ok code t ∧
      (code = 0 ∧ validateProfiles options profiles = .ok () ∧
          (∀ error ∈ stepErrors d envs options 0 (programSteps options), error = none) ∨
        code = 1 ∧ validateProfiles options profiles = .ok () ∧ FailedStep d envs options t ∨
        code = 1 ∧ ∃ e, validateProfiles options profiles = .error e ∧
          t = { stderr := failure e.toStd.what }) := by
  obtain ⟨code, t, hmain, hverdict⟩ := main_ends d envs h hcounts program
  refine ⟨code, t, hmain, ?_⟩
  cases hverdict with
  | reported hvalid hcompleted =>
    obtain ⟨logs, hprogress, -⟩ := hcompleted.logs
    exact .inl ⟨rfl, hvalid, hprogress.errors⟩
  | failed hvalid hfailed => exact .inr (.inl ⟨rfl, hvalid, hfailed.failedStep⟩)
  | unknownProfile hvalid => exact .inr (.inr ⟨rfl, _, hvalid, rfl⟩)

/-- The second run finds no logger. -/
theorem main_verdict_lone :
    let envs := fun k => { droppingEnvironment with comesUp := decide (k ≠ 1) }
    ∃ t, main exactNumbers envs [] (loneOptions.settings.flatMap Setting.render) {} = .ok 1 t ∧
      FailedStep exactNumbers envs loneOptions t := by
  intro envs
  obtain ⟨code, t, hmain, hverdict⟩ :=
    main_verdict exactNumbers envs (parseOptions_settings loneOptions_accepted)
      loneOptions_counts []
  rcases hverdict with ⟨-, -, hall⟩ | ⟨rfl, -, hfailed⟩ | ⟨-, e, hunknown, -⟩
  · have hsome : (stepErrors exactNumbers envs loneOptions 0 (programSteps loneOptions)).all
        Option.isNone = false := by
      decide +kernel
    rw [List.all_eq_true.mpr fun error herror => by rw [hall error herror]; rfl] at hsome
    cases hsome
  · exact ⟨t, hmain, hfailed⟩
  · cases hunknown

/-! ## The report -/

/-- The measured runs, profile by profile, each with its metadata and its number. -/
def reportedRuns (results : Results D) : List (BenchmarkMetadata × RunMetrics D × ℕ) :=
  results.flatMap fun result => (result.2.zipIdx 1).map (Prod.mk result.1)

def runRecord (d : FloatingPoint D) (run : BenchmarkMetadata × RunMetrics D × ℕ) : List Text :=
  ["run".toList] ++ run.1.values ++ runNumbers d .Measured run.2.2 run.2.1

def summaryRecord (d : FloatingPoint D) (result : BenchmarkMetadata × List (RunMetrics D))
    (summary : Summary D) : List Text :=
  result.1.values ++ summaryNumbers d result.2.length summary

/-- What a reader finds in the output of the program: a table of the measured runs, which are
reported in their order, and a table of the profiles. -/
structure Report (d : FloatingPoint D) (envs : ℕ → RunEnvironment) (options : BenchmarkOptions)
    (results : Results D) (stdout : Text) : Prop where
  metadata : results.map Prod.fst = (selected options).map (metadataFor options)
  lengths : ∀ result ∈ results, result.2.length = options.common.measuredRuns
  measured : (((plan options).zip (runResults d envs options)).filter
      fun x => decide (x.1.phase = .Measured)).map Prod.snd =
    (results.flatMap Prod.snd).map Except.ok
  tables : ∃ runs summaries rows,
    stdout = preamble options ++ runs ++ "\n# summary rows\n".toList ++ summaries ∧
    Csv.readRecords ((reportedRuns results).length + 1) runs =
      some (runColumns :: (reportedRuns results).map (runRecord d), []) ∧
    List.Forall₂ (fun result row => ∃ summary, summarize d result.2 = .ok summary ∧
      row = summaryRecord d result summary) results rows ∧
    Csv.readRecords (results.length + 1) summaries = some (summaryColumns :: rows, [])

section Tables

variable (hfixed : ∀ precision value, Csv.Plain (d.fixed precision value))

theorem runHeader_reads (rest : Text) :
    Csv.readRecord (printRunCsvHeader [] ++ rest) = some (runColumns, rest) := by
  have hheader : printRunCsvHeader [] = Csv.separate runColumns ++ ['\n'] := by decide +kernel
  have hplain : ∀ text ∈ runColumns, Csv.Plain text := by decide +kernel
  rw [hheader, List.append_assoc]
  exact Csv.readRecord_separate (plain_reads hplain) (by simp [runColumns]) rest

theorem summaryHeader_reads (rest : Text) :
    Csv.readRecord (printSummaryCsvHeader [] ++ rest) = some (summaryColumns, rest) := by
  have hheader : printSummaryCsvHeader [] = Csv.separate summaryColumns ++ ['\n'] := by
    decide +kernel
  have hplain : ∀ text ∈ summaryColumns, Csv.Plain text := by decide +kernel
  rw [hheader, List.append_assoc]
  exact Csv.readRecord_separate (plain_reads hplain) (by simp [summaryColumns]) rest

include hfixed

theorem runRecord_reads (run : BenchmarkMetadata × RunMetrics D × ℕ) (rest : Text) :
    Csv.readRecord (printRunCsv d [] run.1 .Measured run.2.2 run.2.1 ++ rest) =
      some (runRecord d run, rest) := by
  have hreads : List.Forall₂ Csv.Reads
      (["run".toList] ++ run.1.values.map csvEscape ++ runNumbers d .Measured run.2.2 run.2.1)
      (runRecord d run) :=
    List.rel_append (List.rel_append (plain_reads (by decide)) (metadata_reads run.1))
      (plain_reads (runNumbers_plain hfixed .Measured run.2.2 run.2.1))
  rw [printRunCsv_eq, List.nil_append, List.append_assoc]
  exact Csv.readRecord_separate hreads (by simp) rest

theorem summaryRecord_reads {result : BenchmarkMetadata × List (RunMetrics D)} {line : Text}
    (h : printSummaryCsv d [] result.1 result.2 = .ok line) (hne : result.2 ≠ []) :
    ∃ summary, summarize d result.2 = .ok summary ∧
      ∀ rest, Csv.readRecord (line ++ rest) = some (summaryRecord d result summary, rest) := by
  obtain ⟨summary, hsummary⟩ := summarize_ok (d := d) hne
  have hreads : List.Forall₂ Csv.Reads
      (result.1.values.map csvEscape ++ summaryNumbers d result.2.length summary)
      (summaryRecord d result summary) :=
    List.rel_append (metadata_reads result.1)
      (plain_reads (summaryNumbers_plain hfixed result.2.length summary))
  rw [printSummaryCsv_eq hsummary, List.nil_append] at h
  cases h
  refine ⟨summary, hsummary, fun rest => ?_⟩
  rw [List.append_assoc]
  exact Csv.readRecord_separate hreads (by simp [BenchmarkMetadata.values]) rest

/-- The lines of the runs, below their header. -/
theorem runTable_reads (results : Results D) :
    Csv.readRecords ((reportedRuns results).length + 1)
        (printRunCsvHeader [] ++ results.flatMap fun result => rows d result.1 result.2) =
      some (runColumns :: (reportedRuns results).map (runRecord d), []) := by
  have hlines : (results.flatMap fun result => rows d result.1 result.2) =
      ((reportedRuns results).map fun run =>
        printRunCsv d [] run.1 .Measured run.2.2 run.2.1).flatten := by
    rw [← List.flatMap_def, reportedRuns, List.flatMap_assoc]
    simp only [rows, List.flatMap_map]
  have hreads := Csv.readRecords_lines (List.forall₂_map_left_iff.mpr
    (List.forall₂_map_right_iff.mpr (List.forall₂_same.mpr fun run
      (_ : run ∈ reportedRuns results) => runRecord_reads hfixed run)))
  rw [List.length_map] at hreads
  rw [hlines]
  exact Csv.readRecords_succ (runHeader_reads _) hreads

/-- The lines of the profiles, below theirs. -/
theorem summaryTable_reads {results : Results D} {lines : List Text}
    (h : List.Forall₂ (fun result line => printSummaryCsv d [] result.1 result.2 = .ok line)
      results lines) (hne : ∀ result ∈ results, result.2 ≠ []) :
    ∃ rows, List.Forall₂ (fun result row => ∃ summary, summarize d result.2 = .ok summary ∧
        row = summaryRecord d result summary) results rows ∧
      Csv.readRecords results.length lines.flatten = some (rows, []) := by
  induction h with
  | nil => exact ⟨[], .nil, rfl⟩
  | @cons result line results lines hline _ ih =>
    obtain ⟨hhead, htail⟩ := List.forall_mem_cons.mp hne
    obtain ⟨rows, hrows, hread⟩ := ih htail
    obtain ⟨summary, hsummary, hrecord⟩ := summaryRecord_reads hfixed hline hhead
    refine ⟨_, .cons ⟨summary, hsummary, rfl⟩ hrows, ?_⟩
    rw [List.flatten_cons]
    exact Csv.readRecords_succ (hrecord _) hread

theorem Completed.report {results : Results D} {lines : List Text} {t : ProgramState}
    (h : Completed d envs options results lines t) :
    Report d envs options results t.stdout := by
  obtain ⟨logs, hprogress, hcollected, hplan⟩ := h.runs
  have hresults : logs.map RunLog.result = runResults d envs options := by
    rw [hprogress.logged.results, hplan]
    rfl
  obtain ⟨rows, hrows, hread⟩ := summaryTable_reads hfixed h.summaries hcollected.nonempty
  refine ⟨hcollected.metadata, hcollected.lengths, ?_, _, _, rows, ?_,
    runTable_reads hfixed results, hrows, Csv.readRecords_succ (summaryHeader_reads _) hread⟩
  · rw [← hplan, ← hresults, ← hcollected.metrics, List.zip_map', List.filter_map, List.map_map]
    rfl
  · rw [h.stdout, runSection]
    simp only [List.append_assoc]

/-- When the program succeeds, it has printed tables that can be read back, whatever the metadata
contains: a line for each measured run of a selected profile, in the order of the runs and with
the numbers of that run, and none for the warm-ups; then a line of summary for each profile. -/
theorem main_report {args : List Text} (h : parseOptions args = .ok (some options))
    (hcounts : options.Counts) {program : Text} {t : ProgramState}
    (hmain : main d envs program args {} = .ok 0 t) :
    ∃ results, Report d envs options results t.stdout := by
  obtain ⟨code, t', hmain', hverdict⟩ := main_ends d envs h hcounts program
  rw [hmain] at hmain'
  cases hmain'
  cases hverdict with
  | reported _ hcompleted => exact ⟨_, hcompleted.report hfixed⟩

end Tables

theorem main_report_lone :
    ∃ t results, main exactNumbers (fun _ => droppingEnvironment) []
      (loneOptions.settings.flatMap Setting.render) {} = .ok 0 t ∧
        Report exactNumbers (fun _ => droppingEnvironment) loneOptions results t.stdout := by
  have hparse := parseOptions_settings loneOptions_accepted
  have hreturns : (stepErrors exactNumbers (fun _ => droppingEnvironment) loneOptions 0
      (programSteps loneOptions)).all Option.isNone = true := by
    decide +kernel
  have hnone : ∀ error ∈ stepErrors exactNumbers (fun _ => droppingEnvironment) loneOptions 0
      (programSteps loneOptions), error = none := fun error herror =>
    Option.isNone_iff_eq_none.mp (List.all_eq_true.mp hreturns error herror)
  obtain ⟨t, hmain⟩ := main_succeeds exactNumbers (fun _ => droppingEnvironment) hparse
    loneOptions_counts rfl hnone []
  obtain ⟨results, hreport⟩ := main_report exactNumbers_fixed hparse loneOptions_counts hmain
  exact ⟨t, results, hmain, hreport⟩

end CppLogger
