import CppLogger.Benchmark.Counting
import CppLogger.Sinks.Batching

/-!
# The log files of a run

A run has a directory of its own, and its file sink writes below it. What the sink has been
given can be read off the files that the iterator finds there: every record is one line, in
one of the files whose name ends in `.log`, and no file was there before.
-/

namespace CppLogger

open Paths Rotation

variable {root name : Text}

/-- The files of a sink have the extension that is looked for. -/
theorem extension_makeLogFileName (basePath : Text) (localTime : Tm) (i : ℕ) :
    extension (makeLogFileName basePath (currentDate localTime) i) = ".log".toList := by
  let front := filename basePath ++ '_' :: ((currentDate localTime).text ++ '_' :: decimal i)
  have hsplit : filename basePath ++ '_' :: ((currentDate localTime).text ++
      '_' :: (decimal i ++ ".log".toList)) = front ++ '.' :: "log".toList := by
    simp [front, show ".log".toList = '.' :: "log".toList by decide]
  have hslash : '/' ∉ front ++ '.' :: "log".toList := by
    have hdate : '/' ∉ (currentDate localTime).text :=
      not_mem_strftimeDate (by decide) (by decide) localTime
    have hindex : '/' ∉ decimal (i : ℤ) := not_mem_decimal (by decide) (by decide) _
    simp [front, not_mem_filename, hdate, hindex]
  have hunderscore : '_' ∈ front := by simp [front]
  obtain ⟨c, rest, hfront⟩ := List.exists_cons_of_ne_nil (List.ne_nil_of_mem hunderscore)
  unfold extension makeLogFileName
  rw [hsplit, filename_joinPath _ hslash]
  dsimp only
  rw [if_neg, Search.rtakeWhile_field (by decide)]
  · decide
  · rintro (hdots | hnone)
    · have hmem : '_' ∈ front ++ '.' :: "log".toList := List.mem_append_left _ hunderscore
      rw [hdots] at hmem
      simp at hmem
    · exact hnone (by simp [hfront])

/-- A sink whose base path is in a directory writes below the directory. -/
theorem makeLogFileName_below (h : PlainDirectory root) (hname : '/' ∉ name) (d : DateText) (i : ℕ) :
    Below root (makeLogFileName (joinPath root name) d i) := by
  unfold makeLogFileName
  rw [h.parentPath_joinPath hname, h.joinPath_eq (head_filename_append _ (by decide) _)]
  exact ⟨_, by rw [List.append_assoc]; rfl⟩

/-! ## The contexts of a process -/

section Contexts

variable {calls : List ContextCall} {sequence i : ℕ} {context : RunContext}

theorem makeRunContexts_built (h : (makeRunContexts sequence calls)[i]? = some (.ok context)) :
    ∃ call ∈ calls, ∃ n, call.buildContext n = .ok context := by
  induction calls generalizing sequence i with
  | nil => simp [makeRunContexts] at h
  | cons call calls ih =>
    cases i with
    | zero =>
      have hcall : (call.makeRunContext sequence).1 = .ok context := Option.some.inj h
      unfold ContextCall.makeRunContext at hcall
      split at hcall
      · cases hcall
      · exact ⟨call, List.mem_cons_self, _, hcall⟩
    | succ i =>
      obtain ⟨other, hother, hbuilt⟩ := ih h
      exact ⟨other, List.mem_cons_of_mem _ hother, hbuilt⟩

/-- The names of a call can be printed on one line. -/
def ContextCall.SingleLine (call : ContextCall) : Prop :=
  '\n' ∉ call.library ∧ '\n' ∉ call.profile

instance (call : ContextCall) : Decidable call.SingleLine :=
  inferInstanceAs (Decidable (_ ∧ _))

theorem isLower_runPhaseName (phase : RunPhase) : ∀ c ∈ runPhaseName phase, c.isLower = true := by
  cases phase with
  | Warmup => exact List.all_eq_true.mp rfl
  | Measured => exact List.all_eq_true.mp rfl
  | other value => exact List.all_eq_true.mp rfl

theorem newline_suffix (call : ContextCall) (n : ℕ) : '\n' ∉ call.suffix n :=
  not_mem_suffix (by decide) (by decide) (by decide)
    (fun phase hmem => absurd (isLower_runPhaseName phase _ hmem) (by decide)) n

theorem slash_suffix (call : ContextCall) (n : ℕ) : '/' ∉ call.suffix n :=
  not_mem_suffix (by decide) (by decide) (by decide)
    (fun phase hmem => absurd (isLower_runPhaseName phase _ hmem) (by decide)) n

theorem ContextCall.SingleLine.newline_payload {call : ContextCall} (h : call.SingleLine) (n : ℕ) :
    '\n' ∉ call.payload n := by
  have hopen : '\n' ∉ "[benchmark:".toList := by decide
  unfold ContextCall.payload ContextCall.marker
  simp only [List.mem_append, List.mem_replicate, List.mem_singleton, hopen, h.1, h.2,
    newline_suffix, Char.reduceEq, and_false, or_false, not_false_eq_true]

/-- What holds of every context that is built. -/
structure RunContext.Built (context : RunContext) : Prop where
  directory : PlainDirectory context.outputDirectory
  attempted : context.attempted < wordBound

theorem buildContext_built {call : ContextCall} {n : ℕ} (h : call.buildContext n = .ok context) :
    context.Built := by
  have hne : call.suffix n ≠ [] := by simp [ContextCall.suffix]
  obtain ⟨hdirectory, -, -, hattempted⟩ := buildContext_ok h
  refine ⟨?_, hattempted⟩
  rw [hdirectory]
  exact plainDirectory_joinPath _ (slash_suffix call n) hne

end Contexts

/-! ## What precedes a message -/

/-- A text in brackets. -/
def bracket (field : Text) : Text := '[' :: (field ++ [']'])

theorem bracket_injective {field other : Text} (h : bracket field = bracket other) :
    field = other := by
  simpa [bracket] using h

/-- Between the fields of a head a bracketed word occurs only as one of them. -/
theorem Bracketed.field {word tail : Text} {fields : List Text} (hword : Bracketed word)
    (hplain : ∀ field ∈ fields, '[' ∉ field ∧ ']' ∉ field) (htail : '[' ∉ tail)
    (h : word <:+: fields.flatMap bracket ++ tail) : ∃ field ∈ fields, word = bracket field := by
  obtain ⟨body, hbody, -, hclose⟩ := hword
  have hopen : '[' ∈ word := by simp [hbody]
  induction fields with
  | nil =>
    obtain ⟨before, after, h⟩ := h
    have hall : '[' ∈ before ++ word ++ after :=
      List.mem_append_left _ (List.mem_append_right _ hopen)
    rw [h] at hall
    exact absurd hall htail
  | cons field fields ih =>
    obtain ⟨hfield, hrest⟩ := List.forall_mem_cons.mp hplain
    obtain ⟨before, after, h⟩ := h
    have hline : '[' :: (field ++ ']' :: (fields.flatMap bracket ++ tail)) =
        before ++ word ++ after := by simp [h, bracket]
    cases before with
    | nil =>
      rw [hbody] at hline
      have hinner : field ++ ']' :: (fields.flatMap bracket ++ tail) = body ++ ']' :: after := by
        simpa using hline
      have hsame := congrArg (List.takeWhile (· ≠ ']')) hinner
      rw [Search.takeWhile_field hfield.2, Search.takeWhile_field hclose] at hsame
      exact ⟨field, List.mem_cons_self, by simp [hbody, bracket, hsame]⟩
    | cons c before =>
      have hinner : (field ++ [']']) ++ (fields.flatMap bracket ++ tail) =
          before ++ word ++ after := by simpa using (List.cons.inj hline).2
      have hnot : '[' ∉ field ++ [']'] := by simp [hfield.1]
      rcases Search.place hinner with ⟨rest, hin⟩ | ⟨rest, -, hin⟩ | ⟨u, v, hu, -, hsplit, hin, -⟩
      · exact absurd (hin ▸ List.mem_append_left _ (List.mem_append_right _ hopen)) hnot
      · obtain ⟨found, hmem, heq⟩ := ih hrest ⟨rest, after, hin.symm⟩
        exact ⟨found, List.mem_cons_of_mem _ hmem, heq⟩
      · obtain ⟨d, u, rfl⟩ := List.exists_cons_of_ne_nil hu
        have hd : d = '[' := by
          rw [hbody] at hsplit
          exact ((List.cons.inj hsplit).1).symm
        exact absurd (by rw [hin, hd]; simp) hnot

section Head

variable {Tid : Type*} (host : Host Tid) (record : LogRecord Tid)

/-- The fields of a line before its message. -/
def lineFields : List Text :=
  [renderTime host record.timestamp, levelToString record.level,
    "tid:".toList ++ decimal (host.hash record.threadId),
    record.file ++ ':' :: decimal record.line]

def lineHead : Text := (lineFields host record).flatMap bracket ++ [' ']

theorem formatLine_eq : formatLine host record = lineHead host record ++ record.message := by
  have hopen : "][".toList = [']', '['] := by decide
  have htid : "][tid:".toList = ']' :: '[' :: "tid:".toList := by decide
  have hclose : "] ".toList = [']', ' '] := by decide
  unfold formatLine assembleLine appendInteger lineHead lineFields bracket
  rw [hopen, htid, hclose]
  simp only [List.flatMap_cons, List.flatMap_nil, List.append_assoc, List.cons_append,
    List.nil_append, List.append_nil]

variable {record}

theorem plain_lineFields (hfile : PlainName record.file) :
    ∀ field ∈ lineFields host record, '[' ∉ field ∧ ']' ∉ field := by
  have hlevel : ∀ level, '[' ∉ levelToString level ∧ ']' ∉ levelToString level := by
    intro level
    cases level with
    | other value =>
      exact ⟨(by decide : '[' ∉ "UNKNOWN".toList), (by decide : ']' ∉ "UNKNOWN".toList)⟩
    | _ => decide
  have htid : '[' ∉ "tid:".toList ∧ ']' ∉ "tid:".toList := by decide
  have hnumber : ∀ value : ℤ, '[' ∉ decimal value ∧ ']' ∉ decimal value := fun value =>
    ⟨not_mem_decimal (by decide) (by decide) value, not_mem_decimal (by decide) (by decide) value⟩
  have htime : '[' ∉ renderTime host record.timestamp ∧ ']' ∉ renderTime host record.timestamp :=
    ⟨not_mem_appendMilliseconds (by decide) (by decide) (by decide)
        (not_mem_strftimeSecond (by decide) (by decide) (by decide) (by decide) _) _,
      not_mem_appendMilliseconds (by decide) (by decide) (by decide)
        (not_mem_strftimeSecond (by decide) (by decide) (by decide) (by decide) _) _⟩
  intro field hfield
  simp only [lineFields, List.mem_cons, List.not_mem_nil, or_false] at hfield
  rcases hfield with rfl | rfl | rfl | rfl
  · exact htime
  · exact hlevel _
  · simp only [List.mem_append, htid.1, htid.2, hnumber, or_false, not_false_eq_true, and_self]
  · simp only [List.mem_append, List.mem_cons, hfile.1, hfile.2, hnumber, Char.reduceEq, or_false,
      not_false_eq_true, and_self]

/-- What is between the brackets of a marker. -/
def ContextCall.inscription (call : ContextCall) (n : ℕ) : Text :=
  "benchmark:".toList ++ call.library ++ [':'] ++ call.profile ++ ':' :: call.suffix n

theorem mem_inscription (call : ContextCall) (n : ℕ) :
    'b' ∈ call.inscription n ∧ ':' ∈ call.inscription n := by
  have hname : 'b' ∈ "benchmark:".toList := by decide
  unfold ContextCall.inscription
  simp only [List.mem_append, List.mem_cons, hname, true_or, or_true, and_self]

theorem marker_eq_bracket (call : ContextCall) (n : ℕ) :
    call.marker n = bracket (call.inscription n) := by
  have hopen : "[benchmark:".toList = '[' :: "benchmark:".toList := by decide
  unfold ContextCall.marker ContextCall.inscription bracket
  rw [hopen]
  simp only [List.append_assoc, List.cons_append, List.nil_append]

/-- No marker occurs in front of a message: it is in brackets, and none of the fields that are
in brackets is one. -/
theorem marker_not_lineHead {call : ContextCall} (hcall : call.Plain) (n : ℕ)
    (hfile : PlainName record.file) : ¬call.marker n <:+: lineHead host record := by
  intro hoccurs
  unfold lineHead at hoccurs
  have hblank : '[' ∉ [' '] := by decide
  obtain ⟨field, hfield, hmarker⟩ :=
    (hcall.bracketed n).field (plain_lineFields host hfile) hblank hoccurs
  obtain rfl : call.inscription n = field :=
    bracket_injective ((marker_eq_bracket call n).symm.trans hmarker)
  obtain ⟨hb, hcolon⟩ := mem_inscription call n
  simp only [lineFields, List.mem_cons, List.not_mem_nil, or_false] at hfield
  rcases hfield with htime | hlevel | htid | hplace
  · exact absurd (htime ▸ hb) (not_mem_appendMilliseconds (by decide) (by decide) (by decide)
      (not_mem_strftimeSecond (by decide) (by decide) (by decide) (by decide) _) _)
  · rw [hlevel] at hcolon
    cases hlevel : record.level with
    | other value =>
      rw [hlevel] at hcolon
      exact absurd hcolon (by decide : ':' ∉ "UNKNOWN".toList)
    | _ =>
      rw [hlevel] at hcolon
      revert hcolon
      decide
  · rw [htid] at hb
    have hname : 'b' ∉ "tid:".toList := by decide
    have hnumber : 'b' ∉ decimal (host.hash record.threadId) :=
      not_mem_decimal (by decide) (by decide) _
    exact (List.mem_append.mp hb).elim hname hnumber
  · have hsuffix : ':' ∉ call.suffix n :=
      not_mem_suffix (by decide) (by decide) (by decide)
        (fun phase hmem => absurd (isLower_runPhaseName phase _ hmem) (by decide)) n
    have hnumber : ':' ∉ decimal record.line := not_mem_decimal (by decide) (by decide) _
    have hlast : call.suffix n = decimal record.line :=
      calc call.suffix n = (call.inscription n).rtakeWhile (· ≠ ':') :=
            (Search.rtakeWhile_field hsuffix).symm
        _ = (record.file ++ ':' :: decimal record.line).rtakeWhile (· ≠ ':') := by rw [hplace]
        _ = decimal record.line := Search.rtakeWhile_field hnumber
    have hunderscore : '_' ∈ call.suffix n := by simp [ContextCall.suffix]
    rw [hlast] at hunderscore
    exact not_mem_decimal (by decide) (by decide) _ hunderscore

end Head

/-! ## What the iterator finds -/

def DirectoryEntry.isRegular (entry : DirectoryEntry) : Bool :=
  match entry.regular with
  | .ok true => true
  | _ => false

/-- The entry of a regular file. -/
def fileEntry (directory : Directory) (path : Text) : DirectoryEntry where
  path := path
  extension := extension path
  fileSize := .ok (content (onDisk directory) path).length
  content := content (onDisk directory) path

/-- The files at any depth below a directory. -/
def filesBelow (root : Text) (directory : Directory) : List Text :=
  directory.keys.filter fun path => Below root path

/-- The iterator finds the files below the directory, in some order, and directories. -/
structure Lists (directory : Directory) (root : Text) (entries : List DirectoryEntry) : Prop where
  readable : ∀ entry ∈ entries, entry.Readable
  files : (entries.filter DirectoryEntry.isRegular).Perm
    ((filesBelow root directory).map (fileEntry directory))

theorem DirectoryEntry.isRegular_of_isLog {entry : DirectoryEntry} (h : entry.isLog = true) :
    entry.isRegular = true := by
  cases hregular : entry.regular with
  | error message =>
    rw [isLog, hregular] at h
    cases h
  | ok regular =>
    cases regular with
    | true => rw [isRegular, hregular]
    | false =>
      rw [isLog, hregular] at h
      cases h

theorem isLog_fileEntry (directory : Directory) (path : Text) :
    (fileEntry directory path).isLog = decide (extension path = ".log".toList) := rfl

/-- The paths of the files that are inspected. -/
def logsBelow (root : Text) (directory : Directory) : List Text :=
  (filesBelow root directory).filter fun path => extension path = ".log".toList

variable {directory directory' : Directory} {entries : List DirectoryEntry}

theorem Lists.logs (h : Lists directory root entries) :
    (entries.filter DirectoryEntry.isLog).Perm
      ((logsBelow root directory).map (fileEntry directory)) := by
  have hregular : entries.filter DirectoryEntry.isLog =
      (entries.filter DirectoryEntry.isRegular).filter DirectoryEntry.isLog := by
    rw [List.filter_filter]
    refine List.filter_congr fun entry _ => ?_
    by_cases hlog : entry.isLog = true
    · simp [hlog, DirectoryEntry.isRegular_of_isLog hlog]
    · simp [hlog]
  have hmap : (logsBelow root directory).map (fileEntry directory) =
      ((filesBelow root directory).map (fileEntry directory)).filter DirectoryEntry.isLog := by
    rw [List.filter_map]
    rfl
  rw [hregular, hmap]
  exact h.files.filter _

theorem nodup_logsBelow (root : Text) (directory : Directory) : (logsBelow root directory).Nodup :=
  (directory.keys_nodup.filter _).filter _

/-- The lines of a file are the records that have been written to it. -/
theorem getlines_terminate {records : List Text} (h : ∀ r ∈ records, '\n' ∉ r) :
    getlines (Framing.terminate '\n' records) = records := by
  unfold getlines
  dsimp only
  rw [(Framing.splitOn_terminate_eq_iff '\n' records).mpr h, List.getLast?_concat, if_pos rfl,
    List.dropLast_concat]

theorem length_terminate (records : List Text) :
    (Framing.terminate '\n' records).length = (records.map fun r => r.length + 1).sum := by
  simp [Framing.terminate, List.length_flatMap]

theorem countP_eq_sum {α : Type*} (p : α → Bool) (xs : List α) :
    xs.countP p = (xs.map fun x => (p x).toNat).sum := by
  induction xs with
  | nil => rfl
  | cons x xs ih =>
    rw [List.countP_cons, ih, List.map_cons, List.sum_cons, Nat.add_comm]
    cases p x <;> rfl

section Inspection

variable {calls : List ContextCall} {sequence i : ℕ} {context : RunContext}
variable {placements : List (Placement Text Char)}

/-- What has been written below an empty directory, one line a record. -/
structure Written (root : Text) (directory directory' : Directory)
    (placements : List (Placement Text Char)) : Prop where
  fresh : ∀ p, Below root p → directory.lookup p = none
  files : ∀ p, content (onDisk directory') p =
    content (onDisk directory) p ++ Framing.terminate '\n' (recordsAt p placements)
  below : ∀ x ∈ placements, Below root x.path ∧ extension x.path = ".log".toList
  lines : ∀ x ∈ placements, '\n' ∉ x.record

namespace Written

variable (h : Written root directory directory' placements)
include h

theorem content_eq {p : Text} (hp : Below root p) :
    content (onDisk directory') p = Framing.terminate '\n' (recordsAt p placements) := by
  have hnone : content (onDisk directory) p = [] := by simp [content, onDisk, h.fresh p hp]
  rw [h.files, hnone, List.nil_append]

theorem lines_at {p : Text} : ∀ r ∈ recordsAt p placements, '\n' ∉ r := by
  intro r hr
  obtain ⟨x, hx, rfl⟩ := List.mem_map.mp hr
  exact h.lines x (List.mem_of_mem_filter hx)

theorem getlines_eq {p : Text} (hp : Below root p) :
    getlines (content (onDisk directory') p) = recordsAt p placements := by
  rw [h.content_eq hp, getlines_terminate h.lines_at]

theorem mem_logs {x : Placement Text Char} (hx : x ∈ placements) :
    x.path ∈ logsBelow root directory' := by
  obtain ⟨hbelow, hlog⟩ := h.below x hx
  have hrecord : x.record ∈ recordsAt x.path placements :=
    List.mem_map_of_mem (List.mem_filter.mpr ⟨hx, by simp⟩)
  have hcontent : content (onDisk directory') x.path ≠ [] := by
    rw [h.content_eq hbelow]
    intro hnil
    have hempty := List.flatMap_eq_nil_iff.mp hnil _ hrecord
    simp at hempty
  have hkey : x.path ∈ directory'.keys :=
    AList.mem_keys.mp (AList.lookup_isSome.mp (isSome_of_content hcontent))
  simpa [logsBelow, filesBelow, hkey, hlog] using hbelow

/-- A sum over the inspected files is a sum over the records. -/
theorem sum_logs (weight : Text → ℕ) :
    ((logsBelow root directory').map fun p => ((recordsAt p placements).map weight).sum).sum =
      ((placements.map Placement.record).map weight).sum := by
  rw [sum_recordsAt weight (nodup_logsBelow _ _) fun x hx => h.mem_logs hx, List.map_map]
  rfl

theorem sum_entries (hlists : Lists directory' root entries) {measure : DirectoryEntry → ℕ}
    (weight : Text → ℕ) (hmeasure : ∀ p, Below root p →
      measure (fileEntry directory' p) = ((recordsAt p placements).map weight).sum) :
    ((entries.filter DirectoryEntry.isLog).map measure).sum =
      ((placements.map Placement.record).map weight).sum := by
  rw [(hlists.logs.map measure).sum_eq, List.map_map, ← h.sum_logs]
  refine congrArg List.sum (List.map_congr_left fun p hp => hmeasure p ?_)
  simpa using List.of_mem_filter (List.mem_of_mem_filter hp)

/-- The inspection counts the records with the payload of the context, and all bytes. -/
theorem inspected (hplain : ∀ call ∈ calls, call.Plain)
    (hi : (makeRunContexts sequence calls)[i]? = some (.ok context))
    (hformatted : ∀ x ∈ placements,
      FormattedLine (makeRunContexts sequence calls) context x.record)
    (hlists : Lists directory' root entries) :
    let records := placements.map Placement.record
    let bytes := (Framing.terminate '\n' records).length
    inspectLogOutput context (.ok entries) =
      if bytes < wordBound then
        .ok { deliveredRecords := records.countP (carries context)
              bytes
              fileCount := (entries.filter DirectoryEntry.isLog).length }
      else .error (.runtime_error "benchmark output is too large to measure".toList) := by
  intro records bytes
  have hfile : ∀ p ∈ logsBelow root directory', Below root p := by
    intro p hp
    simpa using List.of_mem_filter (List.mem_of_mem_filter hp)
  have hlines : ∀ entry ∈ entries, entry.isLog = true → ∀ line ∈ getlines entry.content,
      FormattedLine (makeRunContexts sequence calls) context line := by
    intro entry hentry hlog line hline
    have hmem := hlists.logs.mem_iff.mp (List.mem_filter.mpr ⟨hentry, hlog⟩)
    obtain ⟨p, hp, rfl⟩ := List.mem_map.mp hmem
    have hat : line ∈ recordsAt p placements := by
      rw [← h.getlines_eq (hfile p hp)]
      exact hline
    obtain ⟨x, hx, rfl⟩ := List.mem_map.mp hat
    exact hformatted x (List.mem_of_mem_filter hx)
  have hstats : ({} : OutputStats).deliveredRecords ≤ ({} : OutputStats).bytes := le_rfl
  have hbound : ({} : OutputStats).bytes < wordBound := by decide
  have hfold := inspectEntries_eq hplain hi hlists.readable hlines hstats hbound
  have hrecords : ((entries.filter DirectoryEntry.isLog).map (DirectoryEntry.records context)).sum =
      records.countP (carries context) := by
    rw [h.sum_entries hlists (fun r => (carries context r).toNat) fun p hp => ?_, countP_eq_sum]
    rw [DirectoryEntry.records, fileEntry, h.getlines_eq hp, countP_eq_sum]
  have hbytes : ((entries.filter DirectoryEntry.isLog).map fun entry => entry.content.length).sum =
      bytes := by
    rw [h.sum_entries hlists (fun r => r.length + 1) fun p hp => ?_]
    · exact (length_terminate records).symm
    · rw [fileEntry, h.content_eq hp, length_terminate]
  simp only [Nat.zero_add, hrecords, hbytes] at hfold
  exact hfold

end Written

end Inspection

end CppLogger
