import CppLogger.Benchmark.Harness
import CppLogger.Foundation.Csv

/-!
# The benchmark report

The harness prints one line for each run or one for each profile, below a header line.
What the metadata holds is quoted where it has to be, so a reader of comma-separated
values finds it in its columns again.
-/

namespace CppLogger

structure Distribution (D : Type) where
  minimum : D
  median : D
  maximum : D

structure Summary (D : Type) where
  attemptedProducerRate : Distribution D
  acceptedProducerRate : Distribution D
  deliveredEndToEndRate : Distribution D
  dropRatePercent : Distribution D
  drainSeconds : Distribution D

structure BenchmarkMetadata where
  library : Text
  libraryVersion : Text
  profile : Text
  queuePolicy : Text
  queueCapacity : Text
  flushMode : Text
  deriving DecidableEq, Repr

def csvEscape (value : Text) : Text :=
  if value.find? (fun c => decide (c ∈ ",\"\r\n".toList)) = none then value
  else '"' :: value.flatMap (fun c => if c = '"' then ['"', c] else [c]) ++ ['"']

section Rates

variable {D : Type} (d : FloatingPoint D)

def makeDistribution (values : List D) : Except HarnessError (Distribution D) :=
  let values := values.mergeSort fun x y => !d.lt y x
  let middle := values.length / 2
  match values[0]?, values[middle - 1]?, values[middle]?, values[values.length - 1]? with
  | some front, some below, some above, some back =>
    let median :=
      if values.length % 2 = 0 then d.div (d.add below above) (d.ofNat 2) else above
    .ok ⟨front, median, back⟩
  | _, _, _, _ =>
    .error (.invalid_argument "cannot summarize an empty benchmark result set".toList)

variable (metrics : RunMetrics D)

def attemptedProducerRate : D := d.div (d.ofNat metrics.attempted) metrics.producerSeconds

def acceptedProducerRate : D := d.div (d.ofNat metrics.delivered) metrics.producerSeconds

def deliveredEndToEndRate : D := d.div (d.ofNat metrics.delivered) metrics.endToEndSeconds

def dropRatePercent : D :=
  if metrics.attempted = 0 then d.ofNat 0
  else d.div (d.mul (d.ofNat metrics.dropped) (d.ofNat 100)) (d.ofNat metrics.attempted)

def bytesPerDeliveredRecord : D :=
  if metrics.delivered = 0 then d.ofNat 0
  else d.div (d.ofNat metrics.output.bytes) (d.ofNat metrics.delivered)

def summarize (metrics : List (RunMetrics D)) : Except HarnessError (Summary D) := do
  let attemptedRates ← makeDistribution d (metrics.map (attemptedProducerRate d))
  let acceptedRates ← makeDistribution d (metrics.map (acceptedProducerRate d))
  let deliveredRates ← makeDistribution d (metrics.map (deliveredEndToEndRate d))
  let dropRates ← makeDistribution d (metrics.map (dropRatePercent d))
  let drainTimes ← makeDistribution d (metrics.map RunMetrics.drainSeconds)
  return ⟨attemptedRates, acceptedRates, deliveredRates, dropRates, drainTimes⟩

end Rates

/-! ## The lines -/

def printMetadata (output : Text) (metadata : BenchmarkMetadata) : Text :=
  output ++ csvEscape metadata.library ++ [','] ++ csvEscape metadata.libraryVersion ++ [','] ++
    csvEscape metadata.profile ++ [','] ++ csvEscape metadata.queuePolicy ++ [','] ++
    csvEscape metadata.queueCapacity ++ [','] ++ csvEscape metadata.flushMode

section Print

variable {D : Type} (d : FloatingPoint D)

def printDistribution (output : Text) (distribution : Distribution D) : Text :=
  output ++ d.fixed 2 distribution.minimum ++ [','] ++ d.fixed 2 distribution.median ++ [','] ++
    d.fixed 2 distribution.maximum

def printRunCsvHeader (output : Text) : Text :=
  output ++ "record_type,".toList ++ "library,library_version,profile,".toList ++
    "queue_policy,queue_capacity,flush_mode,".toList ++ "phase,run,".toList ++
    "attempted,delivered,dropped,".toList ++ "output_files,output_bytes,".toList ++
    "producer_seconds,drain_seconds,".toList ++ "end_to_end_seconds,".toList ++
    "attempted_producer_logs_per_second,".toList ++ "accepted_producer_logs_per_second,".toList ++
    "delivered_end_to_end_logs_per_second,".toList ++ "drop_rate_percent,".toList ++
    "bytes_per_delivered_record\n".toList

def printRunCsv (output : Text) (metadata : BenchmarkMetadata) (phase : RunPhase) (runIndex : ℕ)
    (metrics : RunMetrics D) : Text :=
  let output := output ++ "run,".toList
  let output := printMetadata output metadata
  output ++ [','] ++ runPhaseName phase ++ [','] ++ decimal runIndex ++ [','] ++
    decimal metrics.attempted ++ [','] ++ decimal metrics.delivered ++ [','] ++
    decimal metrics.dropped ++ [','] ++ decimal metrics.output.fileCount ++ [','] ++
    decimal metrics.output.bytes ++ [','] ++ d.fixed 6 metrics.producerSeconds ++ [','] ++
    d.fixed 6 metrics.drainSeconds ++ [','] ++ d.fixed 6 metrics.endToEndSeconds ++ [','] ++
    d.fixed 2 (attemptedProducerRate d metrics) ++ [','] ++
    d.fixed 2 (acceptedProducerRate d metrics) ++ [','] ++
    d.fixed 2 (deliveredEndToEndRate d metrics) ++ [','] ++
    d.fixed 2 (dropRatePercent d metrics) ++ [','] ++
    d.fixed 2 (bytesPerDeliveredRecord d metrics) ++ ['\n']

def printSummaryCsvHeader (output : Text) : Text :=
  output ++ "library,library_version,profile,".toList ++
    "queue_policy,queue_capacity,flush_mode,".toList ++ "measured_runs,".toList ++
    "attempted_producer_rate_min,".toList ++ "attempted_producer_rate_median,".toList ++
    "attempted_producer_rate_max,".toList ++ "accepted_producer_rate_min,".toList ++
    "accepted_producer_rate_median,".toList ++ "accepted_producer_rate_max,".toList ++
    "delivered_end_to_end_rate_min,".toList ++ "delivered_end_to_end_rate_median,".toList ++
    "delivered_end_to_end_rate_max,".toList ++ "drop_rate_percent_min,".toList ++
    "drop_rate_percent_median,".toList ++ "drop_rate_percent_max,".toList ++
    "drain_seconds_min,drain_seconds_median,".toList ++ "drain_seconds_max\n".toList

/-- Nothing is printed when there is nothing to summarize. -/
def printSummaryCsv (output : Text) (metadata : BenchmarkMetadata)
    (metrics : List (RunMetrics D)) : Except HarnessError Text := do
  let summary ← summarize d metrics
  let output := printMetadata output metadata
  let output := output ++ [','] ++ decimal metrics.length ++ [',']
  let output := printDistribution d output summary.attemptedProducerRate
  let output := output ++ [',']
  let output := printDistribution d output summary.acceptedProducerRate
  let output := output ++ [',']
  let output := printDistribution d output summary.deliveredEndToEndRate
  let output := output ++ [',']
  let output := printDistribution d output summary.dropRatePercent
  let output := output ++ [',']
  let output := printDistribution d output summary.drainSeconds
  return output ++ ['\n']

end Print

/-! ## What a reader finds -/

/-- The columns of the header of `printRunCsv`. -/
def runColumns : List Text :=
  ["record_type", "library", "library_version", "profile", "queue_policy", "queue_capacity",
    "flush_mode", "phase", "run", "attempted", "delivered", "dropped", "output_files",
    "output_bytes", "producer_seconds", "drain_seconds", "end_to_end_seconds",
    "attempted_producer_logs_per_second", "accepted_producer_logs_per_second",
    "delivered_end_to_end_logs_per_second", "drop_rate_percent",
    "bytes_per_delivered_record"].map String.toList

/-- The columns of the header of `printSummaryCsv`. -/
def summaryColumns : List Text :=
  ["library", "library_version", "profile", "queue_policy", "queue_capacity", "flush_mode",
    "measured_runs", "attempted_producer_rate_min", "attempted_producer_rate_median",
    "attempted_producer_rate_max", "accepted_producer_rate_min",
    "accepted_producer_rate_median", "accepted_producer_rate_max",
    "delivered_end_to_end_rate_min", "delivered_end_to_end_rate_median",
    "delivered_end_to_end_rate_max", "drop_rate_percent_min", "drop_rate_percent_median",
    "drop_rate_percent_max", "drain_seconds_min", "drain_seconds_median",
    "drain_seconds_max"].map String.toList

theorem readRecord_runHeader : Csv.readRecord (printRunCsvHeader []) = some (runColumns, []) := by
  decide +kernel

theorem readRecord_summaryHeader :
    Csv.readRecord (printSummaryCsvHeader []) = some (summaryColumns, []) := by
  decide +kernel

/-- The record has a value for each column, and the metadata in the columns of their names. -/
structure Recovered (metadata : BenchmarkMetadata) (names values : List Text) : Prop where
  sameLength : values.length = names.length
  library : Csv.column names values "library".toList = some metadata.library
  libraryVersion : Csv.column names values "library_version".toList = some metadata.libraryVersion
  profile : Csv.column names values "profile".toList = some metadata.profile
  queuePolicy : Csv.column names values "queue_policy".toList = some metadata.queuePolicy
  queueCapacity : Csv.column names values "queue_capacity".toList = some metadata.queueCapacity
  flushMode : Csv.column names values "flush_mode".toList = some metadata.flushMode

/-- The columns of the metadata, in the order in which `printMetadata` prints its strings. -/
def metadataColumns : List Text :=
  ["library", "library_version", "profile", "queue_policy", "queue_capacity",
    "flush_mode"].map String.toList

/-- The six strings of the metadata, in the order of the columns. -/
def BenchmarkMetadata.values (metadata : BenchmarkMetadata) : List Text :=
  [metadata.library, metadata.libraryVersion, metadata.profile, metadata.queuePolicy,
    metadata.queueCapacity, metadata.flushMode]

theorem runColumns_index : metadataColumns.map runColumns.idxOf = List.range' 1 6 := by
  decide +kernel

theorem summaryColumns_index : metadataColumns.map summaryColumns.idxOf = List.range' 0 6 := by
  decide +kernel

/-- The metadata is where the header has its columns. -/
theorem recovered {metadata : BenchmarkMetadata} {names after : List Text} (before : List Text)
    (hindex : metadataColumns.map names.idxOf = List.range' before.length 6)
    (hlength : (before ++ metadata.values ++ after).length = names.length) :
    Recovered metadata names (before ++ metadata.values ++ after) := by
  have hvalue : ∀ k value, metadata.values[k]? = some value →
      (before ++ metadata.values ++ after)[before.length + k]? = some value := by
    intro k value hk
    obtain ⟨hlt, -⟩ := List.getElem?_eq_some_iff.mp hk
    rw [List.append_assoc, List.getElem?_append_right (by omega), Nat.add_sub_cancel_left,
      List.getElem?_append_left hlt, hk]
  simp only [metadataColumns, List.map_cons, List.map_nil, List.range'_succ, List.range'_zero,
    List.cons.injEq] at hindex
  obtain ⟨hlibrary, hversion, hprofile, hpolicy, hcapacity, hmode, -⟩ := hindex
  constructor
  case sameLength => exact hlength
  case library =>
    rw [Csv.column, hlibrary]
    exact hvalue 0 _ rfl
  case libraryVersion =>
    rw [Csv.column, hversion]
    exact hvalue 1 _ rfl
  case profile =>
    rw [Csv.column, hprofile]
    exact hvalue 2 _ rfl
  case queuePolicy =>
    rw [Csv.column, hpolicy]
    exact hvalue 3 _ rfl
  case queueCapacity =>
    rw [Csv.column, hcapacity]
    exact hvalue 4 _ rfl
  case flushMode =>
    rw [Csv.column, hmode]
    exact hvalue 5 _ rfl

/-- An escaped value is read as the value. -/
theorem csvEscape_reads (value : Text) : Csv.Reads (csvEscape value) value := by
  unfold csvEscape
  split_ifs with h
  · have hplain : Csv.Plain value := by
      intro c hc
      have := List.find?_eq_none.mp h c hc
      simp only [decide_eq_true_eq] at this
      refine ⟨?_, ?_, ?_, ?_⟩ <;> rintro rfl <;> exact this (by decide)
    exact hplain.reads
  · have hdouble : (value.flatMap fun c => if c = '"' then ['"', c] else [c]) =
        Csv.doubleQuotes value := by
      unfold Csv.doubleQuotes
      congr 1
      funext c
      split_ifs with hc
      · rw [hc]
      · rfl
    rw [hdouble]
    exact Csv.quoted_reads value

theorem decimal_plain (value : ℤ) : Csv.Plain (decimal value) := by
  intro c hc
  refine ⟨?_, ?_, ?_, ?_⟩ <;> rintro rfl <;> exact not_mem_decimal (by decide) (by decide) value hc

theorem runPhaseName_plain (phase : RunPhase) : Csv.Plain (runPhaseName phase) := by
  cases phase with
  | other value => exact (by decide : Csv.Plain "unknown".toList)
  | _ => decide

theorem printMetadata_eq (output : Text) (metadata : BenchmarkMetadata) :
    printMetadata output metadata = output ++ Csv.separate (metadata.values.map csvEscape) := by
  simp [printMetadata, BenchmarkMetadata.values]

theorem metadata_reads (metadata : BenchmarkMetadata) :
    List.Forall₂ Csv.Reads (metadata.values.map csvEscape) metadata.values := by
  rw [List.forall₂_map_left_iff]
  exact List.forall₂_same.mpr fun value _ => csvEscape_reads value

theorem plain_reads {texts : List Text} (h : ∀ text ∈ texts, Csv.Plain text) :
    List.Forall₂ Csv.Reads texts texts :=
  List.forall₂_same.mpr fun text htext => (h text htext).reads

section Rows

variable {D : Type} {d : FloatingPoint D}
variable (hfixed : ∀ precision value, Csv.Plain (d.fixed precision value))

/-- The numbers of a line of `printRunCsv`. -/
def runNumbers (d : FloatingPoint D) (phase : RunPhase) (runIndex : ℕ) (metrics : RunMetrics D) :
    List Text :=
  [runPhaseName phase, decimal runIndex, decimal metrics.attempted, decimal metrics.delivered,
    decimal metrics.dropped, decimal metrics.output.fileCount, decimal metrics.output.bytes,
    d.fixed 6 metrics.producerSeconds, d.fixed 6 metrics.drainSeconds,
    d.fixed 6 metrics.endToEndSeconds, d.fixed 2 (attemptedProducerRate d metrics),
    d.fixed 2 (acceptedProducerRate d metrics), d.fixed 2 (deliveredEndToEndRate d metrics),
    d.fixed 2 (dropRatePercent d metrics), d.fixed 2 (bytesPerDeliveredRecord d metrics)]

theorem printRunCsv_eq (output : Text) (metadata : BenchmarkMetadata) (phase : RunPhase)
    (runIndex : ℕ) (metrics : RunMetrics D) :
    printRunCsv d output metadata phase runIndex metrics =
      output ++ (Csv.separate (["run".toList] ++ metadata.values.map csvEscape ++
        runNumbers d phase runIndex metrics) ++ ['\n']) := by
  have hrun : "run,".toList = "run".toList ++ [','] := by decide
  unfold printRunCsv
  dsimp only
  rw [printMetadata_eq, hrun]
  unfold runNumbers BenchmarkMetadata.values
  simp only [List.map_cons, List.map_nil, List.cons_append, List.nil_append,
    Csv.separate_cons_cons, Csv.separate_singleton, List.append_assoc]

/-- The numbers of a distribution. -/
def distributionNumbers (d : FloatingPoint D) (distribution : Distribution D) : List Text :=
  [d.fixed 2 distribution.minimum, d.fixed 2 distribution.median, d.fixed 2 distribution.maximum]

/-- The numbers of a line of `printSummaryCsv`. -/
def summaryNumbers (d : FloatingPoint D) (count : ℕ) (summary : Summary D) : List Text :=
  [decimal count] ++ distributionNumbers d summary.attemptedProducerRate ++
    distributionNumbers d summary.acceptedProducerRate ++
    distributionNumbers d summary.deliveredEndToEndRate ++
    distributionNumbers d summary.dropRatePercent ++ distributionNumbers d summary.drainSeconds

theorem printSummaryCsv_eq {metrics : List (RunMetrics D)} {summary : Summary D}
    (h : summarize d metrics = .ok summary) (output : Text) (metadata : BenchmarkMetadata) :
    printSummaryCsv d output metadata metrics =
      .ok (output ++ (Csv.separate (metadata.values.map csvEscape ++
        summaryNumbers d metrics.length summary) ++ ['\n'])) := by
  simp only [printSummaryCsv, h]
  simp [printMetadata, printDistribution, BenchmarkMetadata.values, summaryNumbers,
    distributionNumbers, bind, Except.bind, pure, Except.pure]

/-- There is no distribution of no values. -/
theorem makeDistribution_nil : makeDistribution d [] =
    .error (.invalid_argument "cannot summarize an empty benchmark result set".toList) := by
  simp [makeDistribution]

theorem makeDistribution_ok {values : List D} (h : values ≠ []) :
    ∃ distribution, makeDistribution d values = .ok distribution := by
  have hpos : 0 < values.length := List.length_pos_of_ne_nil h
  have hlen : (values.mergeSort fun x y => !d.lt y x).length = values.length :=
    List.length_mergeSort values
  unfold makeDistribution
  generalize (values.mergeSort fun x y => !d.lt y x) = sorted at hlen
  have hget : ∀ k, k < values.length → ∃ value, sorted[k]? = some value := fun k hk =>
    ⟨_, List.getElem?_eq_getElem (by omega)⟩
  obtain ⟨front, hfront⟩ := hget 0 hpos
  obtain ⟨below, hbelow⟩ := hget (sorted.length / 2 - 1) (by omega)
  obtain ⟨above, habove⟩ := hget (sorted.length / 2) (by omega)
  obtain ⟨back, hback⟩ := hget (sorted.length - 1) (by omega)
  simp [hfront, hbelow, habove, hback]

/-- `summarize` throws only on an empty set of results. -/
theorem summarize_ok {metrics : List (RunMetrics D)} (h : metrics ≠ []) :
    ∃ summary, summarize d metrics = .ok summary := by
  have hmake : ∀ f : RunMetrics D → D, ∃ distribution,
      makeDistribution d (metrics.map f) = .ok distribution := fun f =>
    makeDistribution_ok (by simpa using h)
  obtain ⟨attempted, hattempted⟩ := hmake (attemptedProducerRate d)
  obtain ⟨accepted, haccepted⟩ := hmake (acceptedProducerRate d)
  obtain ⟨delivered, hdelivered⟩ := hmake (deliveredEndToEndRate d)
  obtain ⟨dropped, hdropped⟩ := hmake (dropRatePercent d)
  obtain ⟨drain, hdrain⟩ := hmake RunMetrics.drainSeconds
  exact ⟨⟨attempted, accepted, delivered, dropped, drain⟩, by
    simp [summarize, hattempted, haccepted, hdelivered, hdropped, hdrain, bind, Except.bind, pure,
      Except.pure]⟩

include hfixed

theorem runNumbers_plain (phase : RunPhase) (runIndex : ℕ) (metrics : RunMetrics D) :
    ∀ text ∈ runNumbers d phase runIndex metrics, Csv.Plain text := by
  simp [runNumbers, runPhaseName_plain, decimal_plain, hfixed]

theorem summaryNumbers_plain (count : ℕ) (summary : Summary D) :
    ∀ text ∈ summaryNumbers d count summary, Csv.Plain text := by
  simp [summaryNumbers, distributionNumbers, decimal_plain, hfixed]

/-- The metadata round trip. Numbers being printed without delimiters and quotes, a reader
finds in every line of `printRunCsv` and of `printSummaryCsv` as many values as the header
has columns, and the six strings of the metadata in the columns of their names, whatever
they contain. `printSummaryCsv` emits a line unless there are no results. -/
theorem metadata_round_trip (metadata : BenchmarkMetadata) (output rest : Text) :
    (∀ phase runIndex (metrics : RunMetrics D), ∃ line names values,
      printRunCsv d output metadata phase runIndex metrics = output ++ line ∧
      Csv.readRecord (printRunCsvHeader []) = some (names, []) ∧
      Csv.readRecord (line ++ rest) = some (values, rest) ∧ Recovered metadata names values) ∧
    (printSummaryCsv d output metadata [] =
      .error (.invalid_argument "cannot summarize an empty benchmark result set".toList)) ∧
    (∀ metrics : List (RunMetrics D), metrics ≠ [] → ∃ line names values,
      printSummaryCsv d output metadata metrics = .ok (output ++ line) ∧
      Csv.readRecord (printSummaryCsvHeader []) = some (names, []) ∧
      Csv.readRecord (line ++ rest) = some (values, rest) ∧ Recovered metadata names values) := by
  refine ⟨fun phase runIndex metrics => ?_, ?_, fun metrics hne => ?_⟩
  · have hreads : List.Forall₂ Csv.Reads
        (["run".toList] ++ metadata.values.map csvEscape ++ runNumbers d phase runIndex metrics)
        (["run".toList] ++ metadata.values ++ runNumbers d phase runIndex metrics) :=
      List.rel_append (List.rel_append (plain_reads (by decide)) (metadata_reads metadata))
        (plain_reads (runNumbers_plain hfixed phase runIndex metrics))
    refine ⟨_, _, ["run".toList] ++ metadata.values ++ runNumbers d phase runIndex metrics,
      printRunCsv_eq .., readRecord_runHeader, ?_, ?_⟩
    · rw [List.append_assoc]
      exact Csv.readRecord_separate hreads (by simp) rest
    · exact recovered ["run".toList] runColumns_index (by
        simp [runColumns, runNumbers, BenchmarkMetadata.values])
  · simp only [printSummaryCsv, summarize, List.map_nil, makeDistribution_nil]
    rfl
  · obtain ⟨summary, hsummary⟩ := summarize_ok (d := d) hne
    have hreads : List.Forall₂ Csv.Reads
        (metadata.values.map csvEscape ++ summaryNumbers d metrics.length summary)
        (metadata.values ++ summaryNumbers d metrics.length summary) :=
      List.rel_append (metadata_reads metadata)
        (plain_reads (summaryNumbers_plain hfixed metrics.length summary))
    refine ⟨_, _, metadata.values ++ summaryNumbers d metrics.length summary,
      printSummaryCsv_eq hsummary .., readRecord_summaryHeader, ?_, ?_⟩
    · rw [List.append_assoc]
      exact Csv.readRecord_separate hreads (by simp [BenchmarkMetadata.values]) rest
    · exact recovered [] summaryColumns_index (by
        simp [summaryColumns, summaryNumbers, distributionNumbers, BenchmarkMetadata.values])

end Rows

/-- Rational numbers in place of `double`, for values that it represents exactly. -/
def exactNumbers : FloatingPoint ℚ where
  ofNat n := n
  seconds n := n / 10 ^ 9
  add := (· + ·)
  mul := (· * ·)
  div := (· / ·)
  lt x y := decide (x < y)
  le x y := decide (x ≤ y)
  fixed precision value :=
    let scaled := ⌊|value| * 10 ^ precision + 1 / 2⌋
    let fraction := decimal (scaled % 10 ^ precision)
    (if value < 0 then ['-'] else []) ++ decimal (scaled / 10 ^ precision) ++ ['.'] ++
      List.replicate (precision - fraction.length) '0' ++ fraction

theorem exactNumbers_fixed (precision : ℕ) (value : ℚ) :
    Csv.Plain (exactNumbers.fixed precision value) := by
  have hpoint : Csv.Plain ['.'] := by decide
  have hzeros : ∀ n, Csv.Plain (List.replicate n '0') := by
    intro n c hc
    rw [List.eq_of_mem_replicate hc]
    decide
  have hsign : Csv.Plain (if value < 0 then ['-'] else []) := by
    split_ifs <;> decide
  exact (((hsign.append (decimal_plain _)).append hpoint).append (hzeros _)).append
    (decimal_plain _)

/-- A library name with a comma and a quote, a profile with a line end, and empty strings. -/
theorem metadata_round_trip_quoted :
    let metadata : BenchmarkMetadata := ⟨['a', ',', '"'], [], ['\r', '\n'], ['b'], [], ['c']⟩
    let metrics : RunMetrics ℚ := ⟨4, 3, 1, ⟨3, 96, 1⟩, 1 / 2, 1 / 4, 3 / 4⟩
    ∃ line names values, printSummaryCsv exactNumbers [] metadata [metrics] = .ok ([] ++ line) ∧
      Csv.readRecord (printSummaryCsvHeader []) = some (names, []) ∧
      Csv.readRecord (line ++ []) = some (values, []) ∧ Recovered metadata names values := by
  intro metadata metrics
  exact (metadata_round_trip exactNumbers_fixed metadata [] []).2.2 [metrics] (by simp)

end CppLogger
