import CppLogger.Benchmark.LogFiles
import CppLogger.Logger.Stop

/-!
# A run that verifies itself

After a run the harness counts the records in the log files and compares what is missing with
the drop counter of the logger. On the way from the calls of the producers to the count are
the queue, the worker, the formatting, the batches of the file sink, its files and the search
for markers. Where nothing fails they agree: what the harness counts is what the sink was
handed, and what is missing is what the queue has dropped.
-/

namespace CppLogger

open Paths Rotation

/-! ## The sink of the run -/

section Sink

variable {io : Io} {root name : Text} {maxFileSize : ℕ} {directory : Directory}

theorem lifetime_written (hio : io.Succeeds) (hvalid : Valid (joinPath root name) maxFileSize)
    (hsmall : SmallFiles directory) (hroot : PlainDirectory root) (hname : '/' ∉ name)
    (hfresh : ∀ p, Below root p → directory.lookup p = none) (writeBatchSize : ℕ) (life : Lifetime)
    (hlines : ∀ r ∈ life.calls.flatMap SinkCall.records, '\n' ∉ r.2.text) :
    ∃ directory' placements,
      life.run io (joinPath root name) maxFileSize writeBatchSize directory =
        .ok (directory', placements) ∧
      placements.map Placement.record =
        (life.calls.flatMap SinkCall.records).map (fun r => r.2.text) ∧
      Written root directory directory' placements := by
  obtain ⟨directory', hrun, hfiles, -⟩ := lifetime_spec hio hvalid hsmall writeBatchSize life
  have hrecords := Layout.placements_records (L := logLayout (joinPath root name) maxFileSize)
    ((logLayout (joinPath root name) maxFileSize).opened (onDisk directory)
      (currentDate life.localTime))
    ((life.calls.flatMap SinkCall.records).map dated)
  rw [List.map_map, show Prod.snd ∘ dated = fun r => r.2.text from rfl] at hrecords
  refine ⟨directory', _, hrun, hrecords, hfresh, fun p => ?_, fun x hx => ?_, fun x hx => ?_⟩
  · rw [hfiles]
    exact Layout.content_opened_writes _ _ _ p
  · obtain ⟨r, hr, i, hpath⟩ := Layout.mem_placements hx
    obtain ⟨source, -, rfl⟩ := List.mem_map.mp hr
    rw [hpath]
    exact ⟨makeLogFileName_below hroot hname _ i, extension_makeLogFileName _ source.1 i⟩
  · have hmem : x.record ∈ (life.calls.flatMap SinkCall.records).map (fun r => r.2.text) := by
      rw [← hrecords]
      exact List.mem_map_of_mem hx
    obtain ⟨r, hr, heq⟩ := List.mem_map.mp hmem
    rw [← heq]
    exact hlines r hr

end Sink

/-! ## The logger of the run -/

section Logger

variable {Tid : Type*} [Fintype Tid] [DecidableEq Tid] {host : Host Tid}
variable {s s' : LoggerState Tid} {t : Tid} {es fs before after : List (LoggerEvent Tid)}

/-- The texts that a sink has been handed, in their order. -/
def textsTo (k : ℕ) (history : List (LoggerEvent Tid)) : List Text :=
  ((handedTo k history).map Prod.snd).flatten

omit [Fintype Tid] [DecidableEq Tid] in
theorem FanOut.textsTo_eq {history : List (LoggerEvent Tid)} (h : FanOut host history s) (k : ℕ) :
    textsTo k history = formatLines host (batchesTo k history).flatten :=
  handed_texts fun p hp => (h.wellFormed k p hp).2.1

/-- When the first `stop` of a lifecycle returns whose log calls had all returned before, each
of these calls is a text that every sink has been handed, or counted as dropped. -/
theorem stop_counts
    (h : (loggerSystem host).Run (fun s a => Undisturbed s a ∧ Attentive s a) .initial es s)
    {a : LoggerAction Tid} (hstep : s.step host a = some (s', fs)) (hret : .stopReturned t ∈ fs)
    (hes : es = before ++ .stopCalled t :: after) (hfirst : ∀ u, .stopReturned u ∉ lifecycle es)
    (hreturned : ∀ τ ∈ passedTickets (lifecycle es), .logReturned τ ∈ before) {k : ℕ}
    (hk : k < sinkCount (lifecycle es)) :
    ∃ dropped, (passedTickets (lifecycle es)).length = (textsTo k (lifecycle es)).length + dropped ∧
      s'.queue.droppedCount = word64 dropped := by
  have hsteady := reaches_steady h
  have hacc := lifecycle_accounted h
  obtain ⟨habsent, hqueue, honly⟩ := stopReturned_step hsteady.coherent hstep hret
  have hempty : s.queue.queue = [] := by
    have hleaves := hsteady.draining.leaves
    unfold LoggerState.Leaves at hleaves
    rwa [habsent] at hleaves
  have hcomplete : Complete (lifecycle es) :=
    hsteady.draining.complete (by rw [habsent]; rfl)
  have hanswers : ∀ τ ∈ passedTickets (lifecycle es), HasAnswer (lifecycle es) false τ := by
    rcases stop_settles h hes hreturned with ⟨u, hu⟩ | ⟨u, hut, hu⟩ | hanswers
    · exact absurd hu (hfirst u)
    · exact absurd (honly u hu) hut
    · exact hanswers
  have htexts : (textsTo k (lifecycle es)).length = (takenBatches (lifecycle es)).flatten.length := by
    rw [hsteady.fanOut.textsTo_eq, hcomplete k hk, formatLines, List.length_map]
  refine ⟨losses (queueEvents (lifecycle es)), ?_, by rw [hqueue, hacc.dropped]⟩
  obtain ⟨haccepted, hadmitted⟩ := lengths_by_result (queueEvents (lifecycle es))
  have hlength := (admitted_perm hacc hempty).length_eq
  have hevictions := hacc.evictions
  rw [List.length_append] at hlength
  rw [hsteady.ticketed.passed_length hanswers, htexts]
  unfold losses
  omega

/-- A sink is handed lines of records that the queue has admitted. -/
theorem mem_textsTo {P : LoggerState Tid → LoggerAction Tid → Prop}
    (h : (loggerSystem host).Run P .initial es s) {k : ℕ} {text : Text}
    (htext : text ∈ textsTo k (lifecycle es)) :
    ∃ entry ∈ admitted (queueEvents (lifecycle es)), text = formatLine host entry.record := by
  obtain ⟨hfan, -⟩ := reaches_fanOut h
  have hacc := lifecycle_accounted h
  rw [hfan.textsTo_eq] at htext
  obtain ⟨entry, hentry, rfl⟩ := List.mem_map.mp htext
  obtain ⟨done, last, j, hd, -⟩ := hfan.delivery
  have htaken : entry ∈ (takenBatches (lifecycle es)).flatten := by
    obtain ⟨batch, hbatch, hmem⟩ := List.mem_flatten.mp hentry
    refine List.mem_flatten.mpr ⟨batch, ?_, hmem⟩
    rw [hd.handed] at hbatch
    rw [hd.taken]
    split_ifs at hbatch
    · cases hbatch
    · exact hbatch
    · exact List.mem_append_left _ hbatch
  exact ⟨entry, hacc.removed_prefix.subset ((taken_sublist_removed _).subset htaken), rfl⟩

end Logger

/-! ## The verification -/

/-- The durations that the clock has measured can be reported. -/
def ProducerTiming.valid {D : Type} (d : FloatingPoint D) (timing : ProducerTiming)
    (finished : ℤ) : Bool :=
  !(d.le (d.seconds (timing.producersDone - timing.started)) (d.ofNat 0) ||
    d.lt (d.seconds (finished - timing.producersDone)) (d.ofNat 0) ||
    d.le (d.seconds (finished - timing.started)) (d.ofNat 0))

theorem finalizeRun_accounted {D : Type} (d : FloatingPoint D) {context : RunContext}
    (timing : ProducerTiming) (finished : ℤ) {dropped : ℕ} {output : OutputStats}
    {listing : Except Text (List DirectoryEntry)}
    (hinspect : inspectLogOutput context listing = .ok output)
    (hsum : context.attempted = output.deliveredRecords + dropped) :
    finalizeRun d context timing finished (some dropped) listing =
      if timing.valid d finished then
        .ok { attempted := context.attempted
              delivered := output.deliveredRecords
              dropped
              output
              producerSeconds := d.seconds (timing.producersDone - timing.started)
              drainSeconds := d.seconds (finished - timing.producersDone)
              endToEndSeconds := d.seconds (finished - timing.started) }
      else .error (.runtime_error "invalid benchmark timing result".toList) := by
  have hdropped : context.attempted - output.deliveredRecords = dropped := by omega
  unfold finalizeRun
  rw [hinspect]
  simp only [bind, Except.bind, pure, Except.pure, throw, throwThe, MonadExceptOf.throw]
  rw [if_neg (by omega), if_neg (by simp [hdropped])]
  unfold ProducerTiming.valid
  cases hbad : (d.le (d.seconds (timing.producersDone - timing.started)) (d.ofNat 0) ||
    d.lt (d.seconds (finished - timing.producersDone)) (d.ofNat 0) ||
    d.le (d.seconds (finished - timing.started)) (d.ofNat 0)) <;> simp [hdropped]

section Verification

variable {Tid : Type*} {host : Host Tid} {calls : List ContextCall} {sequence i : ℕ}
variable {context : RunContext} {config : LoggerConfig} {history : List (LoggerEvent Tid)}

/-- A lifecycle of the logger is a run of the benchmark: `init` has been given the base path of
the run, and all that has been logged is the payload of the run, as often as is planned. -/
structure BenchmarkRun (calls : List ContextCall) (sequence i : ℕ) (context : RunContext)
    (config : LoggerConfig) (history : List (LoggerEvent Tid)) : Prop where
  plain : ∀ call ∈ calls, call.Plain ∧ call.SingleLine
  made : (makeRunContexts sequence calls)[i]? = some (.ok context)
  configured : configurations history = [config]
  fileSink : config.enableFileSink = true
  basePath : config.basePath = joinPath context.outputDirectory "cpp_logger".toList
  attempted : (passedTickets history).length = context.attempted
  payload : ∀ entry ∈ admitted (queueEvents history), entry.record.message = context.payload
  sourceFile : ∀ entry ∈ admitted (queueEvents history),
    PlainName entry.record.file ∧ '\n' ∉ entry.record.file

namespace BenchmarkRun

variable (h : BenchmarkRun calls sequence i context config history)
include h

theorem built : context.Built := by
  obtain ⟨call, -, n, hcall⟩ := makeRunContexts_built h.made
  exact buildContext_built hcall

theorem sinkCount_pos : 0 < sinkCount history := by
  simp [sinkCount, h.configured, LoggerConfig.newSinks, h.fileSink]

/-- The line of a record is one line, which the harness recognizes. -/
theorem line {entry : Entry Tid} (hentry : entry ∈ admitted (queueEvents history)) :
    '\n' ∉ formatLine host entry.record ∧
      FormattedLine (makeRunContexts sequence calls) context (formatLine host entry.record) ∧
      carries context (formatLine host entry.record) = true := by
  obtain ⟨call, hcall, n, -, hmarker, hpayload⟩ := makeRunContexts_numbered h.made
  obtain ⟨hfile, hnewline⟩ := h.sourceFile entry hentry
  have hmessage := h.payload entry hentry
  have hplain : ∀ call ∈ calls, call.Plain := fun call hcall => (h.plain call hcall).1
  have hhead : ¬context.marker <:+: lineHead host entry.record := by
    rw [hmarker]
    exact marker_not_lineHead host (hplain call hcall) n hfile
  have hsingle : '\n' ∉ context.payload := by
    rw [hpayload]
    exact (h.plain call hcall).2.newline_payload n
  refine ⟨(newline_formatLine host entry.record).mpr ⟨hnewline, by rwa [hmessage]⟩, ?_, ?_⟩
  · exact ⟨lineHead host entry.record, context, List.mem_of_getElem? h.made, hhead,
      by rw [formatLine_eq, hmessage]⟩
  · rw [formatLine_eq, hmessage, carries_iff hplain h.made h.made hhead]

end BenchmarkRun

variable [Fintype Tid] [DecidableEq Tid] {s s' : LoggerState Tid} {t : Tid}
variable {es fs before after : List (LoggerEvent Tid)} {io : Io} {directory : Directory}

/-- A run of the benchmark verifies itself. Nothing throws, the worker tests for a closed queue
at no wrong moment, and all log calls have returned before `stop` is called; the file sink is
handed what the logger hands its first sink, and the directory of the run is empty before.
Then the harness counts exactly the records that the sink was handed, what is missing is what
the logger reports as dropped, and the run is accepted unless the files are too large to be
measured or the clock has measured no time. -/
theorem verified_run {D : Type} (d : FloatingPoint D) (timing : ProducerTiming) (finished : ℤ)
    (hrun : (loggerSystem host).Run (fun s a => Undisturbed s a ∧ Attentive s a) .initial es s)
    {a : LoggerAction Tid} (hstep : s.step host a = some (s', fs)) (hret : .stopReturned t ∈ fs)
    (hes : es = before ++ .stopCalled t :: after) (hfirst : ∀ u, .stopReturned u ∉ lifecycle es)
    (hreturned : ∀ τ ∈ passedTickets (lifecycle es), .logReturned τ ∈ before)
    (hbench : BenchmarkRun calls sequence i context config (lifecycle es))
    (hio : io.Succeeds) (hvalid : Valid config.basePath config.maxFileSize)
    (hsmall : SmallFiles directory)
    (hfresh : ∀ p, Below context.outputDirectory p → directory.lookup p = none) (life : Lifetime)
    (hlife : (life.calls.flatMap SinkCall.records).map (fun r => r.2.text) =
      textsTo 0 (lifecycle es)) :
    ∃ directory' placements,
      life.run io config.basePath config.maxFileSize config.writeBatchSize directory =
        .ok (directory', placements) ∧
      ∀ entries, Lists directory' context.outputDirectory entries →
        let texts := textsTo 0 (lifecycle es)
        let bytes := (Framing.terminate '\n' texts).length
        finalizeRun d context timing finished (some s'.queue.droppedCount) (.ok entries) =
          if bytes < wordBound then
            if timing.valid d finished then
              .ok { attempted := context.attempted
                    delivered := texts.length
                    dropped := s'.queue.droppedCount
                    output := ⟨texts.length, bytes, (entries.filter DirectoryEntry.isLog).length⟩
                    producerSeconds := d.seconds (timing.producersDone - timing.started)
                    drainSeconds := d.seconds (finished - timing.producersDone)
                    endToEndSeconds := d.seconds (finished - timing.started) }
            else .error (.runtime_error "invalid benchmark timing result".toList)
          else .error (.runtime_error "benchmark output is too large to measure".toList) := by
  have hlines : ∀ text ∈ textsTo 0 (lifecycle es), '\n' ∉ text ∧
      FormattedLine (makeRunContexts sequence calls) context text ∧
      carries context text = true := by
    intro text htext
    obtain ⟨entry, hentry, rfl⟩ := mem_textsTo hrun htext
    exact hbench.line hentry
  obtain ⟨dropped, hcount, hdropped⟩ :=
    stop_counts hrun hstep hret hes hfirst hreturned hbench.sinkCount_pos
  have hsum : context.attempted = (textsTo 0 (lifecycle es)).length + s'.queue.droppedCount := by
    have hbound := hbench.built.attempted
    rw [hbench.attempted] at hcount
    rw [hdropped, word64_of_lt (by omega), hcount]
  rw [hbench.basePath] at hvalid ⊢
  have hclean : ∀ r ∈ life.calls.flatMap SinkCall.records, '\n' ∉ r.2.text := fun r hr =>
    (hlines r.2.text (hlife ▸ List.mem_map_of_mem hr)).1
  obtain ⟨directory', placements, hlifetime, hrecords, hwritten⟩ :=
    lifetime_written hio hvalid hsmall hbench.built.directory (by decide) hfresh
      config.writeBatchSize life hclean
  rw [hlife] at hrecords
  refine ⟨directory', placements, hlifetime, fun entries hlists => ?_⟩
  have hformatted : ∀ x ∈ placements,
      FormattedLine (makeRunContexts sequence calls) context x.record := fun x hx =>
    (hlines x.record (hrecords ▸ List.mem_map_of_mem hx)).2.1
  have hall : (textsTo 0 (lifecycle es)).countP (carries context) =
      (textsTo 0 (lifecycle es)).length :=
    List.countP_eq_length.mpr fun text htext => (hlines text htext).2.2
  have hinspected := hwritten.inspected (fun call hcall => (hbench.plain call hcall).1)
    hbench.made hformatted hlists
  dsimp only at hinspected ⊢
  rw [hrecords, hall] at hinspected
  by_cases hroom : (Framing.terminate '\n' (textsTo 0 (lifecycle es))).length < wordBound
  · rw [if_pos hroom] at hinspected ⊢
    exact finalizeRun_accounted d timing finished hinspected hsum
  · rw [if_neg hroom] at hinspected ⊢
    unfold finalizeRun
    rw [hinspected]
    rfl

end Verification

/-! ## A run of one message -/

/-- One thread sends one message. -/
def soloCall : ContextCall where
  options := { threadCount := 1, messagesPerThread := 1, payloadSize := 32, outputDirectory := ['o'] }
  library := ['l']
  profile := ['p']
  phase := .Measured
  runIndex := 1
  timestamp := 5

def soloContext : RunContext where
  outputDirectory := "o/l/p/measured_1_5_1".toList
  marker := soloCall.marker 1
  payload := soloCall.payload 1
  attempted := 1

def soloConfig : LoggerConfig where
  basePath := joinPath soloContext.outputDirectory "cpp_logger".toList
  minLevel := .INFO
  queueCapacity := 1
  writeBatchSize := 1
  flushPolicy := .OnStop
  flushAtOrAbove := none

def soloLog : List (LoggerAction TwoThreads) :=
  .begin .second (.logStatic .INFO (some "b.cpp".toList) 7 soloContext.payload) ::
    List.replicate 5 (.app .second true 0)

def soloClose : List (LoggerAction TwoThreads) :=
  [.begin .first .stop, .app .first true 0, .app .first true 0, .app .first true 0,
    .queue (.run (some .first) true false), .queue (.notify (some .first) none),
    .queue (.notify (some .first) none), .app .first true 0, .work true 0, .work true 0,
    .queue (.run none true false), .queue (.notify none none)]

def soloDrain : List (LoggerAction TwoThreads) :=
  List.replicate 8 (.work true 0) ++ .queue (.run none true false) ::
    List.replicate 6 (.work true 0)

/-- The record comes in, `stop` closes the queue, and the worker drains it. -/
def soloSchedule : List (LoggerAction TwoThreads) :=
  initSchedule .first soloConfig ++ soloLog ++ pushSchedule .second ++ soloClose ++ soloDrain ++
    List.replicate 2 (.app .first true 0)

theorem soloSchedule_runs :
    ((loggerSystem epochHost).exec (fun s a => Undisturbed s a ∧ Attentive s a) .initial
      soloSchedule).isSome = true := by
  decide +kernel

def soloRecord : LogRecord TwoThreads :=
  ⟨0, .INFO, .second, some "b.cpp".toList, [], 7, soloContext.payload⟩

theorem small_soloLine : (formatLine epochHost soloRecord).length < 2 ^ 63 := by
  decide +kernel

def soloLife : Lifetime where
  localTime := epochDay 1
  calls := [.writeBatch [(epochDay 1, ⟨formatLine epochHost soloRecord, small_soloLine⟩)], .flush]

/-- Durations in whole nanoseconds. -/
def wholeNumbers : FloatingPoint ℤ where
  ofNat n := n
  seconds n := n
  add := (· + ·)
  mul := (· * ·)
  div := (· / ·)
  lt a b := decide (a < b)
  le a b := decide (a ≤ b)
  fixed _ n := decimal n

theorem soloRun :
    ∃ es s s' fs before after,
      (loggerSystem epochHost).Run (fun s a => Undisturbed s a ∧ Attentive s a) .initial es s ∧
      s.step epochHost (.app .first true 0) = some (s', fs) ∧ .stopReturned .first ∈ fs ∧
      es = before ++ .stopCalled .first :: after ∧ (∀ u, .stopReturned u ∉ lifecycle es) ∧
      (∀ τ ∈ passedTickets (lifecycle es), .logReturned τ ∈ before) ∧
      configurations (lifecycle es) = [soloConfig] ∧ (passedTickets (lifecycle es)).length = 1 ∧
      (admitted (queueEvents (lifecycle es))).map Entry.record = [soloRecord] ∧
      textsTo 0 (lifecycle es) = [formatLine epochHost soloRecord] ∧ s'.queue.droppedCount = 0 := by
  have hsplit : ∀ es : List (LoggerEvent TwoThreads), .stopCalled .first ∈ es →
      es = es.takeWhile (· ≠ .stopCalled .first) ++
        .stopCalled .first :: (es.dropWhile (· ≠ .stopCalled .first)).tail := by
    intro es hmem
    induction es with
    | nil => cases hmem
    | cons e es ih =>
      by_cases he : e = .stopCalled .first
      · simp [he]
      · have hrest := ih ((List.mem_cons.mp hmem).resolve_left (Ne.symm he))
        simp only [List.takeWhile_cons, List.dropWhile_cons, ne_eq, he, not_false_eq_true,
          decide_true, if_true, List.cons_append]
        exact congrArg (List.cons e) hrest
  exact ⟨_, _, _, _, _, _, .of_schedule soloSchedule soloSchedule_runs,
    (Option.some_get (by decide +kernel)).symm, by decide +kernel, hsplit _ (by decide +kernel),
    by decide +kernel, by decide +kernel, by decide +kernel, by decide +kernel, by decide +kernel,
    by decide +kernel, by decide +kernel⟩

theorem verified_run_solo :
    ∃ directory' placements,
      soloLife.run calmIo soloConfig.basePath soloConfig.maxFileSize soloConfig.writeBatchSize ∅ =
        .ok (directory', placements) ∧
      ∀ entries, Lists directory' soloContext.outputDirectory entries →
        ∃ metrics, finalizeRun wholeNumbers soloContext ⟨0, 1⟩ 2 (some 0) (.ok entries) = .ok metrics ∧
          metrics.delivered = 1 ∧ metrics.dropped = 0 := by
  obtain ⟨es, s, s', fs, before, after, hrun, hstep, hret, hes, hfirst, hreturned, hconfig,
    hattempted, hadmitted, htexts, hdropped⟩ := soloRun
  have hrecord : ∀ entry ∈ admitted (queueEvents (lifecycle es)), entry.record = soloRecord := by
    intro entry hentry
    have hmem := List.mem_map_of_mem (f := Entry.record) hentry
    rwa [hadmitted, List.mem_singleton] at hmem
  have hbench : BenchmarkRun [soloCall] 0 0 soloContext soloConfig (lifecycle es) :=
    { plain := by decide
      made := rfl
      configured := hconfig
      fileSink := rfl
      basePath := rfl
      attempted := hattempted
      payload := fun entry hentry => by rw [hrecord entry hentry]; rfl
      sourceFile := fun entry hentry => by rw [hrecord entry hentry]; decide }
  obtain ⟨directory', placements, hlife, haccepted⟩ := verified_run wholeNumbers ⟨0, 1⟩ 2 hrun hstep
    hret hes hfirst hreturned hbench calmIo_succeeds
    (⟨by decide, by decide, by decide⟩ : Valid soloConfig.basePath soloConfig.maxFileSize)
    smallFiles_empty (fun p _ => AList.lookup_empty p) soloLife (by rw [htexts]; rfl)
  refine ⟨directory', placements, hlife, fun entries hlists => ?_⟩
  have hmetrics := haccepted entries hlists
  rw [htexts, hdropped] at hmetrics
  have hroom : (Framing.terminate '\n' [formatLine epochHost soloRecord]).length < wordBound := by
    decide +kernel
  dsimp only at hmetrics
  rw [if_pos hroom, if_pos (by decide)] at hmetrics
  exact ⟨_, hmetrics, rfl, rfl⟩

end CppLogger
