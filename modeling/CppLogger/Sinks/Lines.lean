import CppLogger.Sinks.Batching

/-!
# One record, one line

A sink writes the records that it is given and a newline after each. The records can be
read back from the bytes exactly when none of them has a newline in it, and the formatted
text of a record has one exactly when its message or its file name does: nothing on the way
from the caller to the sink looks at the characters of either.
-/

namespace CppLogger

open Rotation Statement

/-! ## The console sink -/

/-- What the operating system answers to writes to a console, after the bytes before. -/
structure ConsoleIo where
  writes : Text → Text → Bool
  flushes : Text → Bool

/-- The members of `ConsoleSink`; `output` is what its stream has been given so far. -/
structure ConsoleSink where
  pending : Text := []
  output : Text := []
  deriving DecidableEq, Repr

abbrev ConsoleM := EStateM SinkError ConsoleSink

def makeConsoleSink (io : Io) (writeBatchSize : ℕ) : Except SinkError ConsoleSink :=
  if reservePending io writeBatchSize then .ok {} else .error .bad_alloc

def ConsoleSink.writeBatch (io : ConsoleIo) (records : List Text) : ConsoleM Unit := do
  modify fun s => { s with pending := records.foldl (fun pending r => pending ++ r ++ ['\n']) s.pending }
  let s ← get
  if s.pending = [] then
    return
  if !io.writes s.output s.pending then
    throw (.runtime_error "failed to write console log batch".toList)
  set { s with output := s.output ++ s.pending, pending := [] }

def ConsoleSink.flush (io : ConsoleIo) : ConsoleM Unit := do
  let s ← get
  if !io.flushes s.output then
    throw (.runtime_error "failed to flush console output".toList)

def ConsoleSink.run (io : ConsoleIo) : List (List Text) → ConsoleM Unit
  | [] => return
  | records :: batches => do
    ConsoleSink.writeBatch io records
    ConsoleSink.flush io
    ConsoleSink.run io batches

variable {cio : ConsoleIo}

theorem foldl_terminate (records : List Text) (pending : Text) :
    records.foldl (fun pending r => pending ++ r ++ ['\n']) pending =
      pending ++ Framing.terminate '\n' records := by
  induction records generalizing pending with
  | nil => simp
  | cons r records ih =>
    rw [List.foldl_cons, ih]
    simp [Framing.terminate]

theorem ConsoleSink.writeBatch_spec (hio : ∀ output bytes, cio.writes output bytes = true)
    (output : Text) (records : List Text) :
    ConsoleSink.writeBatch cio records ⟨[], output⟩ =
      .ok ⟨⟩ ⟨[], output ++ Framing.terminate '\n' records⟩ := by
  unfold ConsoleSink.writeBatch
  rw [modify_bind, get_bind, foldl_terminate, List.nil_append]
  by_cases hnil : Framing.terminate '\n' records = []
  · rw [if_pos hnil, hnil, List.append_nil]
    rfl
  · rw [if_neg hnil, if_neg (by simp [hio])]
    rfl

/-- A console gets every record and a newline after each. -/
theorem ConsoleSink.run_spec (hwrites : ∀ output bytes, cio.writes output bytes = true)
    (hflushes : ∀ output, cio.flushes output = true) (output : Text) (batches : List (List Text)) :
    ConsoleSink.run cio batches ⟨[], output⟩ =
      .ok ⟨⟩ ⟨[], output ++ Framing.terminate '\n' batches.flatten⟩ := by
  induction batches generalizing output with
  | nil => simp [ConsoleSink.run, pure_run]
  | cons records batches ih =>
    have hflush : ∀ s, ConsoleSink.flush cio s = .ok ⟨⟩ s := by
      intro s
      unfold ConsoleSink.flush
      rw [get_bind, if_neg (by simp [hflushes])]
      rfl
    unfold ConsoleSink.run
    rw [bind_ok (ConsoleSink.writeBatch_spec hwrites output records), bind_ok (hflush _), ih]
    simp

/-! ## Reading the records back -/

variable {io : Io} {basePath : Text} {maxFileSize : ℕ} {directory : Directory} {Tid : Type*}
variable {host : Host Tid}

/-- What can be read back from each file: the records that went there. -/
def ReadsBack (directory directory' : Directory) (placements : List (Placement Text Char)) : Prop :=
  ∀ p, ∃ bytes, content (onDisk directory') p = content (onDisk directory) p ++ bytes ∧
    bytes.splitOn '\n' = recordsAt p placements ++ [[]]

theorem readsBack_iff {directory' : Directory} {placements : List (Placement Text Char)}
    (hfiles : ∀ p, content (onDisk directory') p =
      content (onDisk directory) p ++ Framing.terminate '\n' (recordsAt p placements)) :
    ReadsBack directory directory' placements ↔
      ∀ r ∈ placements.map Placement.record, '\n' ∉ r := by
  constructor
  · intro hback r hr
    obtain ⟨x, hx, rfl⟩ := List.mem_map.mp hr
    obtain ⟨bytes, hbytes, hsplit⟩ := hback x.path
    rw [List.append_cancel_left ((hfiles x.path).symm.trans hbytes).symm] at hsplit
    have hmem : x.record ∈ recordsAt x.path placements :=
      List.mem_map_of_mem (List.mem_filter.mpr ⟨hx, by simp⟩)
    exact (Framing.splitOn_terminate_eq_iff '\n' _).mp hsplit x.record hmem
  · intro hclean p
    refine ⟨_, hfiles p, (Framing.splitOn_terminate_eq_iff '\n' _).mpr fun r hr => hclean r ?_⟩
    obtain ⟨x, hx, rfl⟩ := List.mem_map.mp hr
    exact List.mem_map_of_mem (List.mem_of_mem_filter hx)

theorem formatted_clean_iff (records : List (LogRecord Tid)) :
    (∀ r ∈ formatRecords host {} records, '\n' ∉ r) ↔ ∀ record ∈ records, record.SingleLine := by
  have hvalid : TimestampCache.Valid host {} := by
    intro h
    cases h
  rw [formatRecords_valid hvalid]
  simp [newline_formatLine]

/-- A record is one line exactly when it has no newline of its own; only then can the
records be read back, from the files and from a console. -/
theorem one_record_one_line (cio : ConsoleIo) (host : Host Tid) (records : List (LogRecord Tid))
    (hio : io.Succeeds) (hvalid : Valid basePath maxFileSize) (hsmall : SmallFiles directory)
    (writeBatchSize : ℕ) (life : Lifetime)
    (hlife : (life.calls.flatMap SinkCall.records).map (fun r => r.2.text) =
      formatRecords host {} records)
    (hwrites : ∀ output bytes, cio.writes output bytes = true)
    (hflushes : ∀ output, cio.flushes output = true) (batches : List (List Text))
    (hbatches : batches.flatten = formatRecords host {} records) :
    (∀ record : LogRecord Tid, ∀ cache : TimestampCache, cache.Valid host →
      ('\n' ∉ (formatMessage host cache record).1 ↔ record.SingleLine)) ∧
    (∃ directory' placements,
      life.run io basePath maxFileSize writeBatchSize directory = .ok (directory', placements) ∧
      placements.map Placement.record = formatRecords host {} records ∧
      (ReadsBack directory directory' placements ↔ ∀ record ∈ records, record.SingleLine)) ∧
    ∃ output, ConsoleSink.run cio batches {} = .ok ⟨⟩ ⟨[], output⟩ ∧
      (output.splitOn '\n' = formatRecords host {} records ++ [[]] ↔
        ∀ record ∈ records, record.SingleLine) := by
  refine ⟨?_, ?_, ?_⟩
  · intro record cache hcache
    rw [(formatMessage_valid hcache record).1]
    exact newline_formatLine host record
  · obtain ⟨directory', hrun, hfiles, -⟩ := lifetime_spec hio hvalid hsmall writeBatchSize life
    have hrecords := Layout.placements_records (L := logLayout basePath maxFileSize)
      ((logLayout basePath maxFileSize).opened (onDisk directory) (currentDate life.localTime))
      ((life.calls.flatMap SinkCall.records).map dated)
    rw [List.map_map, show Prod.snd ∘ dated = fun r => r.2.text from rfl, hlife] at hrecords
    refine ⟨directory', _, hrun, hrecords, ?_⟩
    rw [readsBack_iff fun p => by rw [hfiles]; exact Layout.content_opened_writes _ _ _ p, hrecords,
      formatted_clean_iff]
  · refine ⟨_, ConsoleSink.run_spec hwrites hflushes [] batches, ?_⟩
    rw [List.nil_append, hbatches, Framing.splitOn_terminate_eq_iff, formatted_clean_iff]

/-- The clock of the example records stands still. -/
def stillHost : Host Unit := ⟨fun _ => epochDay 1, fun _ => 7⟩

def messageRecord (message : String) : LogRecord Unit :=
  ⟨0, .INFO, (), none, "a.cpp".toList, 1, message.toList⟩

def lineLife (message : String)
    (h : (formatLine stillHost (messageRecord message)).length < 2 ^ 63) : Lifetime where
  localTime := epochDay 1
  calls := [.writeBatch [(epochDay 1, ⟨formatLine stillHost (messageRecord message), h⟩)]]

theorem one_record_one_line_plain :
    ∃ output, ConsoleSink.run ⟨fun _ _ => true, fun _ => true⟩
        [[formatLine stillHost (messageRecord "ok")]] {} = .ok ⟨⟩ ⟨[], output⟩ ∧
      output.splitOn '\n' = [formatLine stillHost (messageRecord "ok")] ++ [[]] := by
  obtain ⟨-, -, output, hrun, hback⟩ :=
    one_record_one_line ⟨fun _ _ => true, fun _ => true⟩ stillHost [messageRecord "ok"]
      calmIo_succeeds (⟨by decide, by decide, by decide⟩ : Valid "app".toList 10) smallFiles_empty 256
      (lineLife "ok" (by decide +kernel)) rfl (fun _ _ => rfl) (fun _ => rfl)
      [[formatLine stillHost (messageRecord "ok")]] rfl
  refine ⟨output, hrun, hback.mpr ?_⟩
  simp only [List.mem_singleton, forall_eq]
  exact ⟨by decide, by decide⟩

/-- A message of two lines arrives at the sinks as it is; a console shows two lines. -/
theorem newline_passes :
    '\n' ∈ (formatMessage stillHost {} (messageRecord "a\nb")).1 ∧
      ∃ output, ConsoleSink.run ⟨fun _ _ => true, fun _ => true⟩
          [[(formatMessage stillHost {} (messageRecord "a\nb")).1]] {} = .ok ⟨⟩ ⟨[], output⟩ ∧
        output.splitOn '\n' ≠ [(formatMessage stillHost {} (messageRecord "a\nb")).1] ++ [[]] := by
  have hnewline : '\n' ∈ (formatMessage stillHost {} (messageRecord "a\nb")).1 := by decide +kernel
  refine ⟨hnewline, _, ConsoleSink.run_spec (fun _ _ => rfl) (fun _ => rfl) [] _, ?_⟩
  intro hback
  exact (Framing.splitOn_terminate_eq_iff '\n' _).mp hback _ (by simp) hnewline

end CppLogger
